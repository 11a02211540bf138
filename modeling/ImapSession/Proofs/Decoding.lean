import ImapSession.Text.Utf8

/-!
Decoding undoes encoding. What is encoded is read back character by character: the
first byte says how many bytes there are, and each of the others carries six bits.
-/
namespace ImapSession.Utf8

theorem toNat_byte {n : Nat} (h : n < 256) : (UInt8.ofNat n).toNat = n := by
  rw [UInt8.toNat_ofNat']
  omega

theorem lead_one {b : UInt8} (h : b.toNat < 0x80) : lead b = .one := by
  have h₁ : b < 0x80 := UInt8.lt_iff_toNat_lt.2 h
  rw [lead, if_pos h₁]

theorem lead_two {b : UInt8} (low : 0xc2 ≤ b.toNat) (high : b.toNat < 0xe0) : lead b = .two := by
  have h₁ : ¬ b < 0x80 := by rw [UInt8.lt_iff_toNat_lt]; simp; omega
  have h₂ : ¬ b < 0xc2 := by rw [UInt8.lt_iff_toNat_lt]; simp; omega
  have h₃ : b < 0xe0 := UInt8.lt_iff_toNat_lt.2 high
  rw [lead, if_neg h₁, if_neg h₂, if_pos h₃]

/-- The first of three bytes, and the bounds that it sets to the second: no shorter
form, and no surrogate. -/
theorem lead_three {b : UInt8} (low : 0xe0 ≤ b.toNat) (high : b.toNat < 0xf0) : lead b =
    .three (if b.toNat = 0xe0 then 0xa0 else 0x80) (if b.toNat = 0xed then 0x9f else 0xbf) := by
  have h₁ : ¬ b < 0x80 := by rw [UInt8.lt_iff_toNat_lt]; simp; omega
  have h₂ : ¬ b < 0xc2 := by rw [UInt8.lt_iff_toNat_lt]; simp; omega
  have h₃ : ¬ b < 0xe0 := by rw [UInt8.lt_iff_toNat_lt]; simp; omega
  have h₄ : b < 0xf0 := UInt8.lt_iff_toNat_lt.2 high
  rw [lead, if_neg h₁, if_neg h₂, if_neg h₃, if_pos h₄]
  simp only [← UInt8.toNat_inj]
  split
  · simp_all
  · split <;> simp_all

/-- The first of four bytes, and the bounds that it sets to the second: no shorter form,
and no code point past the last one. -/
theorem lead_four {b : UInt8} (low : 0xf0 ≤ b.toNat) (high : b.toNat ≤ 0xf4) : lead b =
    .four (if b.toNat = 0xf0 then 0x90 else 0x80) (if b.toNat = 0xf4 then 0x8f else 0xbf) := by
  have h₁ : ¬ b < 0x80 := by rw [UInt8.lt_iff_toNat_lt]; simp; omega
  have h₂ : ¬ b < 0xc2 := by rw [UInt8.lt_iff_toNat_lt]; simp; omega
  have h₃ : ¬ b < 0xe0 := by rw [UInt8.lt_iff_toNat_lt]; simp; omega
  have h₄ : ¬ b < 0xf0 := by rw [UInt8.lt_iff_toNat_lt]; simp; omega
  have h₅ : b ≠ 0xe0 := by rw [Ne, ← UInt8.toNat_inj]; simp; omega
  have h₆ : b ≠ 0xed := by rw [Ne, ← UInt8.toNat_inj]; simp; omega
  rw [lead, if_neg h₁, if_neg h₂, if_neg h₃, if_neg h₅, if_neg h₆, if_neg h₄]
  simp only [← UInt8.toNat_inj, UInt8.lt_iff_toNat_lt]
  split
  · simp_all
  · split
    · simp_all
      omega
    · have : b.toNat = 0xf4 := by simp_all; omega
      simp_all

/-- A byte that continues a character, and the six bits it carries. -/
theorem tail_byte {n : Nat} (h : n < 64) :
    isTail (UInt8.ofNat (n + 128)) = true ∧ tailBits (UInt8.ofNat (n + 128)) = n := by
  have hn := toNat_byte (show n + 128 < 256 by omega)
  constructor
  · have low : (0x80 : UInt8) ≤ UInt8.ofNat (n + 128) := by
      rw [UInt8.le_iff_toNat_le, hn]
      simp
    have high : UInt8.ofNat (n + 128) ≤ 0xbf := by
      rw [UInt8.le_iff_toNat_le, hn]
      simp
      omega
    simp only [isTail, low, high, decide_true, Bool.and_self]
  · rw [tailBits, hn]
    omega

section Steps

variable {x y z v : Nat} {done : List Char} {r : List UInt8}

theorem decodeOnto_one (h : x < 0x80) :
    decodeOnto done (UInt8.ofNat x :: r) = decodeOnto (Char.ofNat x :: done) r := by
  have hx := toNat_byte (show x < 256 by omega)
  rw [decodeOnto.eq_def]
  simp only [lead_one (show (UInt8.ofNat x).toNat < _ by omega), hx]

theorem decodeOnto_two (low : 0xc2 ≤ x) (high : x < 0xe0) (hy : y < 64) :
    decodeOnto done (UInt8.ofNat x :: UInt8.ofNat (y + 128) :: r) =
      decodeOnto (Char.ofNat (x % 32 * 64 + y) :: done) r := by
  have hx := toNat_byte (show x < 256 by omega)
  obtain ⟨tail, bits⟩ := tail_byte hy
  rw [decodeOnto.eq_def]
  simp only [lead_two (show _ ≤ (UInt8.ofNat x).toNat by omega) (by omega), tail, bits, hx, if_true]

theorem decodeOnto_three (low : 0xe0 ≤ x) (high : x < 0xf0) (hy : y < 64) (hz : z < 64)
    (long : x = 0xe0 → 0x20 ≤ y) (proper : x = 0xed → y < 0x20) :
    decodeOnto done (UInt8.ofNat x :: UInt8.ofNat (y + 128) :: UInt8.ofNat (z + 128) :: r) =
      decodeOnto (Char.ofNat ((x % 16 * 64 + y) * 64 + z) :: done) r := by
  have hx := toNat_byte (show x < 256 by omega)
  have hb := toNat_byte (show y + 128 < 256 by omega)
  have bits := (tail_byte hy).2
  obtain ⟨tail, bits'⟩ := tail_byte hz
  have within : ((if x = 0xe0 then 0xa0 else 0x80) ≤ UInt8.ofNat (y + 128) &&
      UInt8.ofNat (y + 128) ≤ (if x = 0xed then 0x9f else 0xbf)) = true := by
    simp only [Bool.and_eq_true, decide_eq_true_eq, UInt8.le_iff_toNat_le, hb]
    constructor <;> split <;> simp <;> omega
  rw [decodeOnto.eq_def]
  simp only [lead_three (show _ ≤ (UInt8.ofNat x).toNat by omega) (by omega), hx, within, tail, bits,
    bits', if_true]

theorem decodeOnto_four (low : 0xf0 ≤ x) (high : x ≤ 0xf4) (hy : y < 64) (hz : z < 64)
    (hv : v < 64) (long : x = 0xf0 → 0x10 ≤ y) (proper : x = 0xf4 → y < 0x10) :
    decodeOnto done (UInt8.ofNat x :: UInt8.ofNat (y + 128) :: UInt8.ofNat (z + 128) ::
        UInt8.ofNat (v + 128) :: r) =
      decodeOnto (Char.ofNat (((x % 8 * 64 + y) * 64 + z) * 64 + v) :: done) r := by
  have hx := toNat_byte (show x < 256 by omega)
  have hb := toNat_byte (show y + 128 < 256 by omega)
  have bits := (tail_byte hy).2
  obtain ⟨tail, bits'⟩ := tail_byte hz
  obtain ⟨tail', bits''⟩ := tail_byte hv
  have within : ((if x = 0xf0 then 0x90 else 0x80) ≤ UInt8.ofNat (y + 128) &&
      UInt8.ofNat (y + 128) ≤ (if x = 0xf4 then 0x8f else 0xbf)) = true := by
    simp only [Bool.and_eq_true, decide_eq_true_eq, UInt8.le_iff_toNat_le, hb]
    constructor <;> split <;> simp <;> omega
  rw [decodeOnto.eq_def]
  simp only [lead_four (show _ ≤ (UInt8.ofNat x).toNat by omega) (by omega), hx, within, tail, tail',
    bits, bits', bits'', if_true]

end Steps

/-- What encodes a character is read as this character. -/
theorem decodeOnto_char (done : List Char) (c : Char) (r : List UInt8) :
    decodeOnto done (String.utf8EncodeChar c ++ r) = decodeOnto (c :: done) r := by
  have noSurrogate : c.toNat < 0xd800 ∨ 0xdfff < c.toNat ∧ c.toNat < 0x110000 := c.valid
  have same : ∀ n, n = c.toNat → Char.ofNat n = c := by
    rintro n rfl
    exact Char.ofNat_toNat c
  have hv : c.val.toNat = c.toNat := rfl
  simp only [String.utf8EncodeChar, hv]
  split
  · rw [List.singleton_append, decodeOnto_one (by omega), same _ rfl]
  split
  · rw [List.cons_append, List.singleton_append,
      decodeOnto_two (by omega) (by omega) (by omega), same _ (by omega)]
  split
  · rw [List.cons_append, List.cons_append, List.singleton_append,
      decodeOnto_three (by omega) (by omega) (by omega) (by omega) (by omega) (by omega),
      same _ (by omega)]
  · rw [List.cons_append, List.cons_append, List.cons_append, List.singleton_append,
      decodeOnto_four (by omega) (by omega) (by omega) (by omega) (by omega) (by omega)
        (by omega), same _ (by omega)]

theorem decodeOnto_chars (done cs : List Char) (r : List UInt8) :
    decodeOnto done (cs.flatMap String.utf8EncodeChar ++ r) =
      decodeOnto (cs.reverse ++ done) r := by
  induction cs generalizing done with
  | nil => rfl
  | cons c cs ih =>
    rw [List.flatMap_cons, List.append_assoc, decodeOnto_char, ih, List.reverse_cons,
      List.append_assoc, List.singleton_append]

@[simp] theorem encode_append (s t : String) : encode (s ++ t) = encode s ++ encode t := by
  rw [encode, String.toList_append, List.flatMap_append]
  rfl

@[simp] theorem decode_encode (s : String) : decode (encode s) = s := by
  have read := decodeOnto_chars [] s.toList []
  rw [List.append_nil, List.append_nil] at read
  rw [decode, encode, read, decodeOnto, List.reverse_reverse, String.ofList_toList]

/-- A character below 128 is one byte. -/
theorem encodeChar_small {c : Char} (h : c.toNat < 0x80) :
    String.utf8EncodeChar c = [UInt8.ofNat c.toNat] := by
  have hv : c.val.toNat = c.toNat := rfl
  simp only [String.utf8EncodeChar, hv]
  rw [if_pos (by omega)]

theorem encodeChars_small {cs : List Char} (h : ∀ c ∈ cs, c.toNat < 0x80) :
    cs.flatMap String.utf8EncodeChar = cs.map fun c => UInt8.ofNat c.toNat := by
  induction cs with
  | nil => rfl
  | cons c cs ih =>
    rw [List.flatMap_cons, encodeChar_small (h c (by simp)), ih fun d hd => h d (by simp [hd])]
    rfl

/-- Bytes below 128 are characters of their own. -/
theorem encode_small {bytes : List UInt8} (h : ∀ b ∈ bytes, b.toNat < 0x80) :
    encode (String.ofList (bytes.map fun b => Char.ofNat b.toNat)) = bytes := by
  have back : ∀ b ∈ bytes, UInt8.ofNat (Char.ofNat b.toNat).toNat = b := by
    have all : ∀ v < 0x80, (Char.ofNat v).toNat = v := by decide
    intro b hb
    rw [all _ (h b hb), UInt8.ofNat_toNat]
  have small : ∀ c ∈ bytes.map (fun b => Char.ofNat b.toNat), c.toNat < 0x80 := by
    have all : ∀ v < 0x80, (Char.ofNat v).toNat < 0x80 := by decide
    simpa using fun b hb => all _ (h b hb)
  rw [encode, String.toList_ofList, encodeChars_small small, List.map_map]
  exact (List.map_congr_left back).trans (List.map_id _)

/-- Bytes below 128 are read one by one. -/
theorem decode_small {bytes : List UInt8} (h : ∀ b ∈ bytes, b.toNat < 0x80) :
    decode bytes = String.ofList (bytes.map fun b => Char.ofNat b.toNat) := by
  rw [← decode_encode (String.ofList _), encode_small h]

theorem encode_decode_small {bytes : List UInt8} (h : ∀ b ∈ bytes, b.toNat < 0x80) :
    encode (decode bytes) = bytes := by
  rw [decode_small h, encode_small h]

/-- A byte below 128 stands for itself and is no part of another character. -/
theorem toNat_of_mem_encodeChar {c : Char} {b : UInt8} (h : b ∈ String.utf8EncodeChar c)
    (small : b.toNat < 0x80) : c.toNat = b.toNat := by
  by_cases ascii : c.toNat < 0x80
  · rw [encodeChar_small ascii] at h
    obtain rfl := List.mem_singleton.1 h
    exact (toNat_byte (by omega)).symm
  have hv : c.val.toNat = c.toNat := rfl
  have large : ∀ n, 0x80 ≤ n → n < 256 → b ≠ UInt8.ofNat n := by
    rintro n low high rfl
    rw [toNat_byte high] at small
    omega
  simp only [String.utf8EncodeChar, hv] at h
  rw [if_neg (by omega)] at h
  split at h
  · simp only [List.mem_cons, List.not_mem_nil, or_false] at h
    rcases h with h | h <;> exact absurd h (large _ (by omega) (by omega))
  split at h
  · simp only [List.mem_cons, List.not_mem_nil, or_false] at h
    rcases h with h | h | h <;> exact absurd h (large _ (by omega) (by omega))
  · simp only [List.mem_cons, List.not_mem_nil, or_false] at h
    rcases h with h | h | h | h <;> exact absurd h (large _ (by omega) (by omega))

end ImapSession.Utf8
