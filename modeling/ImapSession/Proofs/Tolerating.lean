import ImapSession.Proofs.Packing

/-!
What base64 may look like and still be read. A payload is sent in the standard alphabet,
padded to a multiple of four and in one line. On its way it may get blanks at any place, even
inside the padding; it may lose padding; and its last symbol may say anything in the bits that
belong to no byte. It is read as the same text.
-/
namespace ImapSession

namespace Base64

def isSymbol (c : Char) : Bool := c.isAlphanum || c == '+' || c == '/'

theorem isSymbol_symbol {v : Nat} (h : v < 64) : isSymbol (symbol v) = true := by
  have all : ∀ v < 64, isSymbol (symbol v) = true := by decide +kernel
  exact all v h

theorem symbol_ne_equals {v : Nat} (h : v < 64) : symbol v ≠ '=' := by
  have all : ∀ v < 64, symbol v ≠ '=' := by decide +kernel
  exact all v h

theorem symbol_inj {v w : Nat} (hv : v < 64) (hw : w < 64) (h : symbol v = symbol w) : v = w := by
  have same : symbolByte v = symbolByte w := by rw [symbolByte, symbolByte, h]
  have read := value_symbolByte hv
  rw [same, value_symbolByte hw] at read
  exact (Option.some.inj read).symm

/-- How many bits of the last symbol belong to no byte. -/
def spare (n : Nat) : Nat := (6 - 8 * n % 6) % 6

theorem values_eq_nil {bytes : List UInt8} (h : values bytes = []) : bytes = [] := by
  have length := length_values bytes
  rw [h, List.length_nil] at length
  exact List.length_eq_zero_iff.1 (by omega)

/-- Symbols and padding together are a multiple of four. -/
theorem padded (bytes : List UInt8) :
    ((values bytes).length + room bytes.length) % 4 = 0 ∧ room bytes.length < 3 := by
  have parts : bytes.length % 3 = 0 ∨ bytes.length % 3 = 1 ∨ bytes.length % 3 = 2 := by omega
  rw [length_values, room]
  rcases parts with h | h | h <;> omega

/-- Bytes are found in their values whatever the bits say that belong to no byte. -/
theorem unpack_altered {bytes : List UInt8} {front : List Nat} {v w : Nat}
    (last : values bytes = front ++ [v])
    (same : w >>> spare bytes.length = v >>> spare bytes.length) :
    unpack (front ++ [w]) = bytes := by
  induction bytes using values.induct generalizing front with
  | case1 => simp [values] at last
  | case2 x =>
    let n := x.toNat * 16
    obtain ⟨rfl, hv⟩ := List.append_inj' (show [n / 64] ++ [n % 64] = front ++ [v] from last) rfl
    have high : w / 16 = v / 16 := by simpa [spare, Nat.shiftRight_eq_div_pow] using same
    have low : n % 64 = v := by simpa using hv
    have hx : (n / 64 * 64 + w) / 16 = x.toNat := by omega
    rw [List.singleton_append, unpack, hx, UInt8.ofNat_toNat]
  | case3 x y =>
    let n := (x.toNat * 256 + y.toNat) * 4
    obtain ⟨rfl, hv⟩ := List.append_inj'
      (show [n / 4096, n / 64 % 64] ++ [n % 64] = front ++ [v] from last) rfl
    have high : w / 4 = v / 4 := by simpa [spare, Nat.shiftRight_eq_div_pow] using same
    have low : n % 64 = v := by simpa using hv
    have hy := y.toNat_lt
    have first : ((n / 4096 * 64 + n / 64 % 64) * 64 + w) / 1024 = x.toNat := by omega
    have second : ((n / 4096 * 64 + n / 64 % 64) * 64 + w) / 4 % 256 = y.toNat := by omega
    simp only [List.cons_append, List.nil_append, unpack, first, second, UInt8.ofNat_toNat]
  | case4 x y z r ih =>
    have group : values [x, y, z] ++ values r = front ++ [v] := last
    have sizes : spare (x :: y :: z :: r).length = spare r.length := by
      simp only [spare, List.length_cons]
      omega
    rw [sizes] at same
    rcases List.eq_nil_or_concat (values r) with none | ⟨front', v', more⟩
    · obtain rfl := values_eq_nil none
      have full : w = v := by simpa [spare, Nat.shiftRight_eq_div_pow] using same
      rw [full, ← group, none, unpack_group]
      rfl
    · rw [more, List.concat_eq_append, ← List.append_assoc] at group
      obtain ⟨rfl, hv⟩ := List.append_inj' group rfl
      obtain rfl : v' = v := by simpa using hv
      rw [List.append_assoc, unpack_group, ih (by rw [more, List.concat_eq_append]) same]

/-- Some padding was taken off the end of an encoding, and it is left as much as there is. -/
theorem spelled_of_trimmed {bytes : List UInt8} {cs : List Char} {missing : Nat}
    (h : symbols bytes = cs ++ List.replicate missing '=') :
    ∃ kept, kept + missing = room bytes.length ∧ cs = spelled (values bytes) kept := by
  have none : ((values bytes).map symbol).count '=' = 0 := by
    rw [List.count_eq_zero]
    rintro hm
    obtain ⟨v, hv, same⟩ := List.mem_map.1 hm
    exact symbol_ne_equals (values_lt bytes v hv) same
  rw [symbols_eq] at h
  have padding := congrArg (List.count '=') h
  simp only [spelled, List.count_append, none, List.count_replicate_self] at padding
  obtain ⟨kept, count⟩ : ∃ kept, kept + missing = room bytes.length :=
    ⟨room bytes.length - missing, by omega⟩
  refine ⟨kept, count, ?_⟩
  rw [spelled, ← count, ← List.replicate_append_replicate, ← List.append_assoc] at h
  exact (List.append_cancel_right h).symm

/-- An encoding from which padding may have been taken off, and in which the last symbol may
say something else in the bits that belong to no byte. -/
inductive Loosened (bytes : List UInt8) : List Char → Prop
  | trimmed {cs : List Char} (missing : Nat)
      (h : (encode bytes).toList = cs ++ List.replicate missing '=') : Loosened bytes cs
  | altered {front : List Char} {v w : Nat} (kept missing : Nat)
      (h : (encode bytes).toList = front ++ symbol v :: List.replicate (kept + missing) '=')
      (known : v < 64) (other : w < 64)
      (same : w >>> spare bytes.length = v >>> spare bytes.length) :
      Loosened bytes (front ++ symbol w :: List.replicate kept '=')

/-- What is in front of all padding and ends in a symbol are the symbols of the values. -/
theorem values_of_symbols {bytes : List UInt8} {front : List Char} {v padding : Nat} (known : v < 64)
    (h : symbols bytes = front ++ symbol v :: List.replicate padding '=') :
    ∃ vs, values bytes = vs ++ [v] ∧ vs.map symbol = front ∧ padding = room bytes.length := by
  rw [← List.singleton_append, ← List.append_assoc] at h
  obtain ⟨kept, count, spelt⟩ := spelled_of_trimmed h
  cases kept with
  | succ kept =>
    rw [spelled, ← List.replicate_append_replicate, ← List.append_assoc] at spelt
    have same := (List.append_inj' spelt rfl).2
    exact absurd (List.head_eq_of_cons_eq same) (symbol_ne_equals known)
  | zero =>
    rw [spelled, List.replicate_zero, List.append_nil] at spelt
    obtain ⟨vs, last, parted, same, one⟩ := List.map_eq_append_iff.1 spelt.symm
    obtain ⟨v', rfl, alike⟩ := List.map_eq_singleton_iff.1 one
    have small := values_lt bytes v' (by simp [parted])
    exact ⟨vs, by rw [parted, symbol_inj small known alike], same, by omega⟩

/-- A loosened encoding spells values in which the same bytes are found. -/
theorem Loosened.values {bytes : List UInt8} {cs : List Char} (h : Loosened bytes cs) :
    ∃ vs k, cs = spelled vs k ∧ (∀ v ∈ vs, v < 64) ∧ vs.length = (values bytes).length ∧
      k ≤ room bytes.length ∧ unpack vs = bytes := by
  cases h with
  | trimmed missing h =>
    rw [encode, String.toList_ofList] at h
    obtain ⟨kept, count, rfl⟩ := spelled_of_trimmed h
    exact ⟨_, kept, rfl, values_lt bytes, rfl, by omega, unpack_values bytes⟩
  | @altered front v w kept missing h known other same =>
    rw [encode, String.toList_ofList] at h
    obtain ⟨vs, parted, rfl, all⟩ := values_of_symbols known h
    refine ⟨vs ++ [w], kept, by simp [spelled], ?_, by simp [parted], by omega,
      unpack_altered parted same⟩
    intro x hx
    rcases List.mem_append.1 hx with hx | hx
    · exact values_lt bytes x (by simp [parted, hx])
    · rw [List.mem_singleton.1 hx]
      exact other

/-- What is spelled with any part of the padding is decoded to the bytes in the values. -/
theorem decode_loosened {bytes : List UInt8} {cs : List Char} (h : Loosened bytes cs) :
    decode (Utf8.encode (String.ofList cs)) = .ok bytes := by
  obtain ⟨vs, k, rfl, small, length, fits, found⟩ := h.values
  obtain ⟨whole, few⟩ := padded bytes
  rw [← length] at whole
  rw [encode_spelled, decode_symbols k small (by omega) (by omega), found]

theorem not_blank_loosened {bytes : List UInt8} {cs : List Char} (h : Loosened bytes cs) :
    ∀ c ∈ cs, Blank.isBlank c = false := by
  obtain ⟨vs, k, rfl, small, -⟩ := h.values
  exact not_blank_spelled small k

/-- An encoding is symbols, and padding up to a multiple of four. -/
theorem encode_spelt (bytes : List UInt8) : ∃ cs k, (encode bytes).toList = cs ++ List.replicate k '=' ∧
    (∀ c ∈ cs, isSymbol c = true) ∧ k < 3 ∧ (cs.length + k) % 4 = 0 := by
  obtain ⟨whole, few⟩ := padded bytes
  refine ⟨(values bytes).map symbol, room bytes.length, ?_, ?_, few, by rwa [List.length_map]⟩
  · rw [encode, String.toList_ofList, symbols_eq, spelled]
  · intro c hc
    obtain ⟨v, hv, rfl⟩ := List.mem_map.1 hc
    exact isSymbol_symbol (values_lt bytes v hv)

end Base64

namespace Blank

/-- Characters among which blanks were put at any places. -/
inductive Spread : List Char → List Char → Prop
  | nil : Spread [] []
  | keep (c : Char) {cs spread : List Char} (h : Spread cs spread) : Spread (c :: cs) (c :: spread)
  | blank {c : Char} {cs spread : List Char} (blank : isBlank c = true) (h : Spread cs spread) :
      Spread cs (c :: spread)

/-- Characters that are no blanks are left when the blanks among them go. -/
theorem Spread.filter {cs spread : List Char} (h : Spread cs spread)
    (visible : ∀ c ∈ cs, isBlank c = false) : spread.filter (fun c => !isBlank c) = cs := by
  induction h with
  | nil => rfl
  | keep c h ih =>
    obtain ⟨here, others⟩ := List.forall_mem_cons.1 visible
    rw [List.filter_cons_of_pos (by simp [here]), ih others]
  | blank blank h ih => rw [List.filter_cons_of_neg (by simp [blank]), ih visible]

end Blank

namespace Exchange

open Base64 (Loosened isSymbol)
open Blank (Spread)

/-- A text is found in every form of its encoding that is loosened and spread out; and the
encoding itself is symbols and padding to a multiple of four, on one line. -/
theorem decode_spread (s : String) :
    (∀ cs payload, Loosened (Utf8.encode s) cs → Spread cs payload.toList → decode payload = .ok s) ∧
    (∃ cs k, (encode s).toList = cs ++ List.replicate k '=' ∧ (∀ c ∈ cs, isSymbol c = true) ∧
      k < 3 ∧ (cs.length + k) % 4 = 0) ∧
    ∀ c ∈ (encode s).toList, c ≠ '\n' ∧ c ≠ '\r' := by
  refine ⟨?_, Base64.encode_spelt _, ?_⟩
  · intro cs payload loosened spread
    have compact : Blank.remove payload = String.ofList cs := by
      rw [Blank.remove, spread.filter (Base64.not_blank_loosened loosened)]
    rw [decode, compact, Base64.decode_loosened loosened]
    exact congrArg Except.ok (Utf8.decode_encode s)
  · intro c hc
    rw [encode, Base64.encode, String.toList_ofList] at hc
    have visible := Base64.not_blank_symbols _ c hc
    constructor
    · rintro rfl
      exact absurd visible (by decide)
    · rintro rfl
      exact absurd visible (by decide)

/-- Four bytes in six symbols, with all spare bits set, one of two padding characters, and blanks
in and behind the padding too. -/
theorem decode_spread_four :
    let cs := ['Y', 'c', 'O', 'p', 'I', 'f', '=']
    let payload := ['Y', 'c', '\u00a0', 'O', 'p', 'I', '\r', '\n', 'f', ' ', '\u2028', '=', '\t']
    encode "a\u00e9!" = "YcOpIQ==" ∧ Loosened (Utf8.encode "a\u00e9!") cs ∧ Spread cs payload ∧
      decode (String.ofList payload) = .ok "a\u00e9!" := by
  intro cs payload
  have loosened : Loosened (Utf8.encode "a\u00e9!") cs :=
    @Base64.Loosened.altered _ ['Y', 'c', 'O', 'p', 'I'] 16 31 1 1 (by decide +kernel) (by decide)
      (by decide) (by decide)
  have spread : Spread cs payload :=
    .keep _ (.keep _ (.blank (by decide) (.keep _ (.keep _ (.keep _ (.blank (by decide)
      (.blank (by decide) (.keep _ (.blank (by decide) (.blank (by decide) (.keep _
        (.blank (by decide) .nil))))))))))))
  have sent : Spread cs (String.ofList payload).toList := by
    rw [String.toList_ofList]
    exact spread
  exact ⟨by decide +kernel, loosened, spread,
    (decode_spread "a\u00e9!").1 cs (String.ofList payload) loosened sent⟩

end Exchange

end ImapSession
