import ImapSession.Base64
import ImapSession.Proofs.Decoding
import ImapSession.Proofs.Splitting
import ImapSession.Login.Digest

/-!
Base64 there and back. Bytes are written as six-bit values, the values as symbols, and
padding fills the last group; the reader finds the values again with any part of the
padding, and the bytes in the values. So a payload is decoded to the text it encodes.
-/
namespace ImapSession

namespace Base64

def symbolByte (v : Nat) : UInt8 := UInt8.ofNat (symbol v).toNat

def values : List UInt8 → List Nat
  | [] => []
  | [x] =>
    let n := x.toNat * 16
    [n / 64, n % 64]
  | [x, y] =>
    let n := (x.toNat * 256 + y.toNat) * 4
    [n / 4096, n / 64 % 64, n % 64]
  | x :: y :: z :: r =>
    let n := (x.toNat * 256 + y.toNat) * 256 + z.toNat
    n / 262144 :: n / 4096 % 64 :: n / 64 % 64 :: n % 64 :: values r

/-- How much padding fills the last group. -/
def room (n : Nat) : Nat := (3 - n % 3) % 3

/-- Values as they are spelled, with some padding behind them. -/
def spelled (vs : List Nat) (k : Nat) : List Char := vs.map symbol ++ List.replicate k '='

theorem symbols_eq (bytes : List UInt8) :
    symbols bytes = spelled (values bytes) (room bytes.length) := by
  fun_induction symbols bytes with
  | case1 => rfl
  | case2 => rfl
  | case3 => rfl
  | case4 x y z r n ih =>
    have same : room (x :: y :: z :: r).length = room r.length := by
      simp only [room, List.length_cons]
      omega
    rw [same]
    simp [values, spelled, ih, n]

theorem values_lt (bytes : List UInt8) : ∀ v ∈ values bytes, v < 64 := by
  fun_induction values bytes with
  | case1 => simp
  | case2 x =>
    have := x.toNat_lt
    simp only [List.mem_cons, List.not_mem_nil, or_false, forall_eq_or_imp, forall_eq]
    omega
  | case3 x y =>
    have := x.toNat_lt
    have := y.toNat_lt
    simp only [List.mem_cons, List.not_mem_nil, or_false, forall_eq_or_imp, forall_eq]
    omega
  | case4 x y z r n ih =>
    have := x.toNat_lt
    have := y.toNat_lt
    have := z.toNat_lt
    simp only [List.mem_cons, forall_eq_or_imp]
    refine ⟨?_, ?_, ?_, ?_, ih⟩ <;> omega

/-- A single value is left over by no number of bytes. -/
@[simp] theorem length_values (bytes : List UInt8) :
    (values bytes).length = bytes.length + (bytes.length + 2) / 3 := by
  fun_induction values bytes with
  | case1 => rfl
  | case2 => simp
  | case3 => simp
  | case4 x y z r n ih =>
    simp only [List.length_cons, ih]
    omega

/-- Four values are unpacked to three bytes. -/
@[simp] theorem unpack_group (x y z : UInt8) (vs : List Nat) :
    unpack (values [x, y, z] ++ vs) = x :: y :: z :: unpack vs := by
  have hy := y.toNat_lt
  have hz := z.toNat_lt
  let n := (x.toNat * 256 + y.toNat) * 256 + z.toNat
  have hn : ((n / 262144 * 64 + n / 4096 % 64) * 64 + n / 64 % 64) * 64 + n % 64 = n := by omega
  have first : n / 65536 = x.toNat := by omega
  have second : n / 256 % 256 = y.toNat := by omega
  have third : n % 256 = z.toNat := by omega
  show unpack (n / 262144 :: n / 4096 % 64 :: n / 64 % 64 :: n % 64 :: vs) = _
  simp only [unpack, hn, first, second, third, UInt8.ofNat_toNat]

/-- All bytes are found again in their values. -/
@[simp] theorem unpack_values (bytes : List UInt8) : unpack (values bytes) = bytes := by
  fun_induction values bytes with
  | case1 => rfl
  | case2 x n =>
    have hx : (n / 64 * 64 + n % 64) / 16 = x.toNat := by omega
    rw [unpack, hx, UInt8.ofNat_toNat]
  | case3 x y n =>
    have hy := y.toNat_lt
    have hn : (n / 4096 * 64 + n / 64 % 64) * 64 + n % 64 = n := by omega
    have first : n / 1024 = x.toNat := by omega
    have second : n / 4 % 256 = y.toNat := by omega
    simp only [unpack, hn, first, second, UInt8.ofNat_toNat]
  | case4 x y z r n ih => exact (unpack_group x y z (values r)).trans (by rw [ih])

theorem value_symbolByte {v : Nat} (h : v < 64) : value? (symbolByte v) = some v := by
  have all : ∀ v < 64, value? (symbolByte v) = some v := by decide +kernel
  exact all v h

theorem symbolByte_ne_pad {v : Nat} (h : v < 64) : symbolByte v ≠ pad := by
  have all : ∀ v < 64, symbolByte v ≠ pad := by decide +kernel
  exact all v h

/-- Symbols are read as their values. -/
theorem body_symbols (offset : Nat) (done : List Nat) {vs : List Nat} (small : ∀ v ∈ vs, v < 64) :
    body offset done (vs.map symbolByte) = .ok (done.reverse ++ vs) := by
  induction vs generalizing offset done with
  | nil => simp [body]
  | cons v vs ih =>
    have rest := ih (offset + 1) (v :: done) fun w hw => small w (by simp [hw])
    simp [body, value_symbolByte (small v (by simp)), rest]

/-- The symbols of the last group are read as its values, whatever part of the padding is there. -/
theorem lastGroup_symbols (start : Nat) {vs : List Nat} (k : Nat) (small : ∀ v ∈ vs, v < 64)
    (enough : 2 ≤ vs.length) :
    lastGroup start (vs.map symbolByte ++ List.replicate k pad) = .ok vs := by
  have run : ∀ b ∈ vs.map symbolByte, decide (b ≠ pad) = true := by
    simp only [List.mem_map, forall_exists_index, and_imp, forall_apply_eq_imp_iff₂,
      decide_eq_true_eq]
    exact fun v hv => symbolByte_ne_pad (small v hv)
  have ends : Splitting.Ends (fun b => decide (b ≠ pad)) (List.replicate k pad) := by
    cases k with
    | zero => exact Splitting.ends_nil _
    | succ k => exact (Splitting.ends_cons _ _ _).2 (by simp)
  have group := Splitting.takeWhile_run run ends
  have some : vs.map symbolByte ++ List.replicate k pad ≠ [] := by
    cases vs with
    | nil => simp at enough
    | cons v vs => simp
  unfold lastGroup
  split
  · contradiction
  · simp only [group, body_symbols start [] small, List.reverse_nil, List.nil_append,
      List.length_map]
    rw [if_neg (by simp; omega), if_neg (by omega)]

/-- Values are read from their symbols with any part of the padding that fills a group. -/
theorem decode_symbols {vs : List Nat} (k : Nat) (small : ∀ v ∈ vs, v < 64)
    (whole : vs.length % 4 ≠ 1) (fits : k ≤ (4 - vs.length % 4) % 4) :
    decode (vs.map symbolByte ++ List.replicate k pad) = .ok (unpack vs) := by
  have length : (vs.map symbolByte ++ List.replicate k pad).length = vs.length + k := by simp
  have regular : strayEnd? (vs.map symbolByte ++ List.replicate k pad) = none := by
    unfold strayEnd?
    split
    · rfl
    · exact if_neg fun h => by
        have := h.1
        omega
  cases vs with
  | nil =>
    obtain rfl : k = 0 := by simpa using fits
    rfl
  | cons v rest =>
    generalize hvs : v :: rest = vs at small whole fits length regular ⊢
    have some : 0 < vs.length := by simp [← hvs]
    generalize hstart : lastStart (vs.length + k) = start
    have inside : start + 2 ≤ vs.length := by
      rw [← hstart, lastStart]
      split <;> omega
    have front : (vs.map symbolByte ++ List.replicate k pad).take start =
        (vs.take start).map symbolByte := by
      rw [List.take_append_of_le_length (by simp; omega), List.map_take]
    have back : (vs.map symbolByte ++ List.replicate k pad).drop start =
        (vs.drop start).map symbolByte ++ List.replicate k pad := by
      rw [List.drop_append_of_le_length (by simp; omega), List.map_drop]
    have first : body 0 [] ((vs.take start).map symbolByte) = .ok ([].reverse ++ vs.take start) :=
      body_symbols 0 [] fun w hw => small w (List.mem_of_mem_take hw)
    have last : lastGroup start ((vs.drop start).map symbolByte ++ List.replicate k pad) =
        .ok (vs.drop start) :=
      lastGroup_symbols start k (fun w hw => small w (List.mem_of_mem_drop hw))
        (by rw [List.length_drop]; omega)
    simp only [decode, regular, length, hstart, front, back, first, last, List.reverse_nil,
      List.nil_append, List.take_append_drop]

/-- A symbol is one byte. -/
theorem symbol_small (v : Nat) : (symbol v).toNat < 0x80 := by
  unfold symbol
  have upper : ∀ v < 26, (Char.ofNat (0x41 + v)).toNat < 0x80 := by decide
  have lower : ∀ v < 26, (Char.ofNat (0x61 + v)).toNat < 0x80 := by decide
  have digit : ∀ v < 10, (Char.ofNat (0x30 + v)).toNat < 0x80 := by decide
  split
  · exact upper v (by assumption)
  · split
    · exact lower (v - 26) (by omega)
    · split
      · exact digit (v - 52) (by omega)
      · split <;> decide

theorem mem_spelled {vs : List Nat} {k : Nat} {c : Char} (h : c ∈ spelled vs k) :
    c = '=' ∨ ∃ v ∈ vs, c = symbol v := by
  rw [spelled, List.mem_append] at h
  cases h with
  | inl h =>
    obtain ⟨v, hv, rfl⟩ := List.mem_map.1 h
    exact .inr ⟨v, hv, rfl⟩
  | inr h => exact .inl (List.eq_of_mem_replicate h)

/-- What is spelled, as it is sent: the symbols of the values and the padding. -/
theorem encode_spelled (vs : List Nat) (k : Nat) : Utf8.encode (String.ofList (spelled vs k)) =
    vs.map symbolByte ++ List.replicate k pad := by
  have small : ∀ c ∈ spelled vs k, c.toNat < 0x80 := by
    intro c hc
    rcases mem_spelled hc with rfl | ⟨v, -, rfl⟩
    · decide
    · exact symbol_small v
  rw [Utf8.encode, String.toList_ofList, Utf8.encodeChars_small small, spelled, List.map_append,
    List.map_map, List.map_replicate]
  rfl

theorem encode_bytes (bytes : List UInt8) : Utf8.encode (encode bytes) =
    (values bytes).map symbolByte ++ List.replicate (room bytes.length) pad := by
  rw [encode, symbols_eq, encode_spelled]

@[simp] theorem decode_encode (bytes : List UInt8) :
    decode (Utf8.encode (encode bytes)) = .ok bytes := by
  have length := length_values bytes
  have whole : (values bytes).length % 4 ≠ 1 := by omega
  have fits : room bytes.length = (4 - (values bytes).length % 4) % 4 := by
    have parts : bytes.length % 3 = 0 ∨ bytes.length % 3 = 1 ∨ bytes.length % 3 = 2 := by omega
    rw [room]
    rcases parts with h | h | h <;> omega
  rw [encode_bytes, decode_symbols _ (values_lt bytes) whole (Nat.le_of_eq fits), unpack_values]

/-- Nothing but symbols and padding is sent. -/
theorem mem_encode {bytes : List UInt8} {b : UInt8} (h : b ∈ Utf8.encode (encode bytes)) :
    b = pad ∨ ∃ v < 64, b = symbolByte v := by
  rw [encode_bytes, List.mem_append] at h
  cases h with
  | inl h =>
    obtain ⟨v, hv, rfl⟩ := List.mem_map.1 h
    exact .inr ⟨v, values_lt bytes v hv, rfl⟩
  | inr h => exact .inl (List.eq_of_mem_replicate h)

/-- No symbol is a blank, and padding is none. -/
theorem not_blank_spelled {vs : List Nat} (small : ∀ v ∈ vs, v < 64) (k : Nat) :
    ∀ c ∈ spelled vs k, Blank.isBlank c = false := by
  have all : ∀ v < 64, Blank.isBlank (symbol v) = false := by decide +kernel
  intro c hc
  rcases mem_spelled hc with rfl | ⟨v, hv, rfl⟩
  · decide
  · exact all v (small v hv)

theorem not_blank_symbols (bytes : List UInt8) : ∀ c ∈ symbols bytes, Blank.isBlank c = false := by
  rw [symbols_eq]
  exact not_blank_spelled (values_lt bytes) _

end Base64

namespace Exchange

/-- A payload is decoded to the text it encodes. -/
@[simp] theorem decode_encode (text : String) : decode (encode text) = .ok text := by
  have kept : Blank.remove (encode text) = encode text := by
    rw [Blank.remove, encode, Base64.encode, String.toList_ofList,
      List.filter_eq_self.2 fun c hc => by simp [Base64.not_blank_symbols _ c hc]]
  rw [decode, kept, encode, Base64.decode_encode]
  exact congrArg Except.ok (Utf8.decode_encode text)

end Exchange

end ImapSession
