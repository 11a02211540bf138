import ImapSession.Proofs.Decoding
import ImapSession.Proofs.Framing
import ImapSession.Proofs.Spelling
import ImapSession.Text.Quoted

/-!
Tokens written out, in the ways a server has to write them: a text between quotes, or
behind the count of its bytes; a list in parentheses; spaces between neighbours. A line
of data written so reads as these tokens, as long as it does not begin with a word that
makes a condition of it.
-/
namespace ImapSession

open Token (openList closeList openCount closeCount quote backslash cr lf)

structure AtomName where
  text : String
  some : Utf8.encode text ≠ []
  all : ∀ b ∈ Utf8.encode text, Token.isAtomByte b = true

/-- A token and the way it is to be written. With each member of a list comes how many
spaces more than one stand before it; before the first one there are none at all. -/
inductive Draft where
  | atom (name : AtomName)
  | quoted (value : String)
  | literal (value : String)
  | list (items : List (Nat × Draft))

namespace Draft

mutual

def token : Draft → Token
  | .atom name => .atom name.text
  | .quoted value => .text value
  | .literal value => .text value
  | .list items => .list (tokens items)

def tokens : List (Nat × Draft) → List Token
  | [] => []
  | (_, d) :: rest => d.token :: tokens rest

end

def numeral (n : Nat) : List UInt8 := Utf8.encode (toString n)

mutual

def bytes : Draft → List UInt8
  | .atom name => Utf8.encode name.text
  | .quoted value => Utf8.encode (Quoted.encode value)
  | .literal value =>
    openCount :: (numeral (Utf8.encode value).length ++
      closeCount :: cr :: lf :: Utf8.encode value)
  | .list items => openList :: (row items ++ [closeList])

/-- Neighbours, the first of them without a space before it. -/
def row : List (Nat × Draft) → List UInt8
  | [] => []
  | (_, d) :: rest => d.bytes ++ others rest

def others : List (Nat × Draft) → List UInt8
  | [] => []
  | (n, d) :: rest => List.replicate (n + 1) Line.space ++ (d.bytes ++ others rest)

end

def line (items : List (Nat × Draft)) : List UInt8 :=
  Line.star :: Line.space :: (row items ++ [cr, lf])

theorem digit_of_mem {n : Nat} {c : Char} (h : c ∈ Nat.toDigits 10 n) :
    0x30 ≤ c.toNat ∧ c.toNat ≤ 0x39 := by
  have digit := Nat.isDigit_of_mem_toDigits (by decide) (by decide) h
  simp only [Char.isDigit, Bool.and_eq_true, decide_eq_true_eq, ge_iff_le,
    UInt32.le_iff_toNat_le] at digit
  exact digit

theorem numeral_eq (n : Nat) :
    numeral n = (Nat.toDigits 10 n).map fun c => UInt8.ofNat c.toNat := by
  have digits : (toString n).toList = Nat.toDigits 10 n := Nat.toList_repr
  rw [numeral, Utf8.encode, digits]
  exact Utf8.encodeChars_small fun c hc => by have := digit_of_mem hc; omega

theorem numeral_ne_nil (n : Nat) : numeral n ≠ [] := by
  simp [numeral_eq]

theorem isDigit_of_mem_numeral {n : Nat} {b : UInt8} (h : b ∈ numeral n) :
    Ascii.isDigit b = true := by
  rw [numeral_eq] at h
  obtain ⟨c, hc, rfl⟩ := List.mem_map.1 h
  have digit := digit_of_mem hc
  have hb := Utf8.toNat_byte (show c.toNat < 256 by omega)
  simp only [Ascii.isDigit, Bool.and_eq_true, decide_eq_true_eq, UInt8.le_iff_toNat_le, hb]
  exact digit

@[simp] theorem decimal_numeral (n : Nat) : Ascii.decimal (numeral n) = n := by
  have fold : ∀ (cs : List Char) (m : Nat), (∀ c ∈ cs, c.toNat < 256) →
      (cs.map fun c => UInt8.ofNat c.toNat).foldl (fun n b => 10 * n + (b.toNat - 0x30)) m =
        Nat.ofDigitChars 10 cs m := by
    intro cs
    induction cs with
    | nil => exact fun _ _ => rfl
    | cons c cs ih =>
      intro m small
      rw [List.map_cons, List.foldl_cons, Utf8.toNat_byte (small c (by simp)),
        ih _ fun d hd => small d (by simp [hd]), Nat.ofDigitChars_cons]
      rfl
  rw [numeral_eq, Ascii.decimal, fold _ _ fun c hc => by have := digit_of_mem hc; omega]
  exact Nat.ofDigitChars_toDigits (by decide) (by decide)

/-- Bytes that need no backslash may be put in front. -/
theorem escaped_plain {u data body : List UInt8} (plain : ∀ b ∈ u, b ≠ quote ∧ b ≠ backslash)
    (h : Token.Escaped data body) : Token.Escaped (u ++ data) (u ++ body) := by
  induction u with
  | nil => exact h
  | cons b u ih =>
    obtain ⟨unquoted, unescaped⟩ := plain b (by simp)
    exact .plain b unquoted unescaped (ih fun c hc => plain c (by simp [hc]))

/-- No byte of a character is a quote or a backslash, but for these two themselves. -/
theorem plain_of_mem {c : Char} {b : UInt8} (h : b ∈ String.utf8EncodeChar c)
    (hc : ¬ (c = '"' ∨ c = '\\')) : b ≠ quote ∧ b ≠ backslash := by
  constructor
  · rintro rfl
    have := Utf8.toNat_of_mem_encodeChar h (by decide)
    exact hc (.inl (Char.toNat_inj.1 this))
  · rintro rfl
    have := Utf8.toNat_of_mem_encodeChar h (by decide)
    exact hc (.inr (Char.toNat_inj.1 this))

theorem escaped_escape (cs : List Char) : Token.Escaped (cs.flatMap String.utf8EncodeChar)
    ((Quoted.escape cs).flatMap String.utf8EncodeChar) := by
  induction cs with
  | nil => exact .nil
  | cons c cs ih =>
    rw [Quoted.escape, List.flatMap_cons, List.flatMap_cons, List.flatMap_append]
    by_cases hc : c = '"' ∨ c = '\\'
    · rw [if_pos hc]
      rcases hc with rfl | rfl
      · exact .escape quote ih
      · exact .escape backslash ih
    · rw [if_neg hc, List.flatMap_singleton]
      exact escaped_plain (fun b hb => plain_of_mem hb hc) ih

theorem encode_quoted (value : String) : Utf8.encode (Quoted.encode value) =
    quote :: ((Quoted.escape value.toList).flatMap String.utf8EncodeChar ++ [quote]) := by
  have mark : String.utf8EncodeChar '"' = [quote] := by decide
  simp [Utf8.encode, Quoted.encode, mark]

mutual

theorem spells : ∀ d : Draft, Token.Spells d.token d.bytes
  | .atom name => by
    have spelt := Token.Spells.atom name.some name.all
    rw [Utf8.decode_encode] at spelt
    exact spelt
  | .quoted value => by
    have spelt := Token.Spells.quoted (escaped_escape value.toList)
    rw [← encode_quoted, ← Utf8.encode, Utf8.decode_encode] at spelt
    exact spelt
  | .literal value => by
    have counted := decimal_numeral (Utf8.encode value).length
    have spelt := Token.Spells.literal (numeral_ne_nil _) (fun _ => isDigit_of_mem_numeral) counted
    rw [Utf8.decode_encode] at spelt
    exact spelt
  | .list items => .list (spells_row items)

theorem spells_row : ∀ items : List (Nat × Draft), Token.Row (tokens items) (row items)
  | [] => .nil
  | (_, d) :: rest => .cons (spells d) (spells_others rest)

theorem spells_others : ∀ items : List (Nat × Draft),
    Token.Others (tokens items) (others items)
  | [] => .nil
  | (n, d) :: rest => .cons (by simp) (by simp [Token.isGap, Line.space]) (spells d)
      (spells_others rest)

end

/-- A line of data that does not begin with a status word reads as the tokens that were
written, and as nothing else. -/
theorem response_line (items : List (Nat × Draft))
    (plain : ∀ word, (tokens items).head? = some (.atom word) → Status.ofName? word = none) :
    ∃ r, Line.response? (line items) = some r ∧ r.isUntagged ∧ r.status? = none ∧
      r.code? = none ∧ r.text? = none ∧ r.tokens = tokens items ∧ r.raw = line items := by
  have chomped : Line.chomp (line items) = Line.star :: Line.space :: row items :=
    Framer.chomp_crlf (Line.star :: Line.space :: row items)
  have heading : Line.heading? (Line.star :: Line.space :: row items) =
      some (.untagged, row items) := by
    simp [Line.heading?, Line.star, Line.plus]
  have data : Line.messageOf? (Line.star :: Line.space :: row items) =
      some (.data (tokens items)) := by
    rw [Line.messageOf?, heading]
    dsimp only
    rw [Token.conditionOf_row (spells_row items) plain, Token.ofBytes_row (spells_row items)]
  refine ⟨⟨.data (tokens items), line items⟩, ?_, rfl, rfl, rfl, rfl, rfl, rfl⟩
  rw [Line.response?, chomped, data]
  rfl

/-- A word and a list, in it texts that hold the bytes that end a text, a list or a line. -/
def sample : List (Nat × Draft) :=
  [(0, .atom ⟨"FETCH", by decide +kernel, by decide +kernel⟩),
    (1, .list [(0, .quoted "a \"b\\"), (0, .literal ")\r\n\x7b3\x7d"), (2, .list [])])]

theorem response_line_sample :
    (∀ word, (tokens sample).head? = some (.atom word) → Status.ofName? word = none) ∧
    line sample = Utf8.encode
      "* FETCH  (\"a \\\"b\\\\\" \x7b6\x7d\r\n)\r\n\x7b3\x7d   ())\r\n" ∧
    ∃ r, Line.response? (line sample) = some r ∧ r.isUntagged ∧ r.status? = none ∧
      r.code? = none ∧ r.text? = none ∧ r.tokens = tokens sample ∧ r.raw = line sample := by
  have plain : ∀ word, (tokens sample).head? = some (.atom word) →
      Status.ofName? word = none := by
    intro word h
    cases h
    decide
  exact ⟨plain, by decide +kernel, response_line sample plain⟩

end Draft

end ImapSession
