import ImapSession.Capabilities
import ImapSession.Proofs.Announcing
import ImapSession.Proofs.Decoding
import ImapSession.Proofs.Framing
import ImapSession.Proofs.Spelling
import ImapSession.Proofs.Whole

/-!
Lines that offer capabilities. The names on them are atoms of RFC 3501, each behind a
space. Such a line is read to the letter or, where the strict grammar does not take it, by
its tokens; either way it says the names on it, in order and up to letter case.
-/
namespace ImapSession

/-- The characters of an atom in RFC 3501. -/
def isNameChar (c : Char) : Bool :=
  0x20 < c.toNat && c.toNat < 0x7f && c != '(' && c != ')' && c != '\x7b' && c != '%' && c != '*' &&
    c != '"' && c != '\\' && c != ']'

/-- A name that a line can offer: any atom but the word that opens the line. -/
structure Capability where
  text : String
  nonempty : text.toList ≠ []
  spelled : text.toList.all isNameChar
  other : Ascii.sameName text Capabilities.word = false
  deriving DecidableEq

namespace Capability

theorem chars (n : Capability) : ∀ c ∈ n.text.toList, isNameChar c := List.all_eq_true.1 n.spelled

def lower (n : Capability) : String := Ascii.lower n.text

def bytes (n : Capability) : List UInt8 := Utf8.encode n.text

/-- A character that a name can hold is one byte. -/
theorem small {c : Char} (h : isNameChar c) : c.toNat < 0x80 := by
  simp only [isNameChar, Bool.and_eq_true, decide_eq_true_eq] at h
  omega

theorem bytes_eq (n : Capability) : n.bytes = n.text.toList.map fun c => UInt8.ofNat c.toNat :=
  Utf8.encodeChars_small fun c hc => small (n.chars c hc)

/-- A character that a name can hold belongs to atoms in both grammars. -/
theorem byte_name {c : Char} (h : isNameChar c) : Capabilities.isAtomByte (UInt8.ofNat c.toNat) ∧
    Token.isAtomByte (UInt8.ofNat c.toNat) ∧ UInt8.ofNat c.toNat ≠ Line.space ∧
    UInt8.ofNat c.toNat ≠ Token.cr ∧ UInt8.ofNat c.toNat ≠ Token.lf := by
  have all : ∀ v < 0x80, isNameChar (Char.ofNat v) →
      Capabilities.isAtomByte (UInt8.ofNat v) ∧ Token.isAtomByte (UInt8.ofNat v) ∧
        UInt8.ofNat v ≠ Line.space ∧ UInt8.ofNat v ≠ Token.cr ∧ UInt8.ofNat v ≠ Token.lf := by
    decide +kernel
  exact all c.toNat (small h) (by rw [Char.ofNat_toNat]; exact h)

theorem mem_bytes {n : Capability} {b : UInt8} (h : b ∈ n.bytes) :
    ∃ c, isNameChar c ∧ b = UInt8.ofNat c.toNat := by
  rw [bytes_eq] at h
  obtain ⟨c, hc, rfl⟩ := List.mem_map.1 h
  exact ⟨c, n.chars c hc, rfl⟩

end Capability

/-- No status begins like the words that head a line of capabilities. -/
theorem Status.ofName_first {word : String} {status : Status} (h : ofName? word = some status) :
    ∃ c rest, word.toList = c :: rest ∧ c.toLower ≠ 'c' ∧ c.toLower ≠ 'e' := by
  have firsts : ∀ status : Status, (status.name.toList.map Char.toLower).head? ≠ none ∧
      (status.name.toList.map Char.toLower).head? ≠ some 'c' ∧
      (status.name.toList.map Char.toLower).head? ≠ some 'e' := by
    intro status
    cases status <;> decide
  have same : status.name.toList.map Char.toLower = word.toList.map Char.toLower := by
    simpa [Ascii.sameName] using List.find?_some h
  have first := firsts status
  rw [same] at first
  cases hw : word.toList with
  | nil => simp [hw] at first
  | cons c rest => exact ⟨c, rest, rfl, by simpa [hw] using first⟩

namespace Line

theorem dropLastIf_append (b : UInt8) (bytes : List UInt8) :
    ∃ ends, bytes = dropLastIf b bytes ++ ends := by
  unfold dropLastIf
  split
  · rename_i last
    have some : bytes ≠ [] := by
      rintro rfl
      simp at last
    exact ⟨_, (List.dropLast_concat_getLast some).symm⟩
  · exact ⟨[], (List.append_nil _).symm⟩

theorem chomp_append (bytes : List UInt8) : ∃ ends, bytes = chomp bytes ++ ends := by
  obtain ⟨ends, h⟩ := dropLastIf_append Token.lf bytes
  obtain ⟨ends', h'⟩ := dropLastIf_append Token.cr (dropLastIf Token.lf bytes)
  refine ⟨ends' ++ ends, ?_⟩
  rw [← List.append_assoc, chomp, ← h', ← h]

/-- A condition opens with the letters of a status. -/
theorem conditionOf_first {body : List UInt8} {c : Condition} (h : conditionOf? body = some c) :
    ∃ b rest, body = b :: rest ∧ (Char.ofNat b.toNat).toLower ≠ 'c' ∧
      (Char.ofNat b.toNat).toLower ≠ 'e' := by
  have small : ∀ b ∈ body.takeWhile Ascii.isLetter, b.toNat < 0x80 := by
    intro b hb
    have letter := List.mem_takeWhile_imp hb
    simp only [Ascii.isLetter, Bool.or_eq_true, Bool.and_eq_true, decide_eq_true_eq,
      UInt8.le_iff_toNat_le] at letter
    have bounds : (0x5a : UInt8).toNat = 0x5a ∧ (0x7a : UInt8).toNat = 0x7a := by decide
    omega
  have word := Utf8.decode_small small
  cases named : Status.ofName? (Utf8.decode (body.takeWhile Ascii.isLetter)) with
  | none => simp [conditionOf?, named] at h
  | some status =>
    obtain ⟨d, rest, hd, first⟩ := Status.ofName_first named
    rw [word, String.toList_ofList] at hd
    obtain ⟨b, bs, hb, rfl, -⟩ := List.map_eq_cons_iff.1 hd
    cases body with
    | nil => simp at hb
    | cons b' body =>
      obtain ⟨rfl, -⟩ : b' = b ∧ _ := by
        rw [List.takeWhile_cons] at hb
        split at hb
        · exact List.cons.inj hb
        · cases hb
      exact ⟨b', body, rfl, first⟩

theorem heading_untagged {line body : List UInt8} (h : heading? line = some (.untagged, body)) :
    line = star :: space :: body := by
  unfold heading? at h
  split at h
  · cases h
  · split at h
    · cases h
    · split at h
      · rename_i starred
        obtain ⟨rfl, head⟩ := starred
        obtain ⟨rest, rfl⟩ := List.head?_eq_some_iff.1 head
        cases h
        rfl
      · dsimp only at h
        split at h
        · split at h <;> cases h
        · cases h

/-- An untagged condition is behind a star and a space. -/
theorem untagged_first {raw : List UInt8} {r : Response} {c : Condition}
    (read : response? raw = some r) (status : r.message = .untagged c) : ∃ b rest,
    raw = star :: space :: b :: rest ∧ (Char.ofNat b.toNat).toLower ≠ 'c' ∧
      (Char.ofNat b.toNat).toLower ≠ 'e' := by
  obtain ⟨m, hm, rfl⟩ := Option.map_eq_some_iff.1 read
  obtain rfl : m = .untagged c := status
  obtain ⟨ends, parts⟩ := chomp_append raw
  unfold messageOf? at hm
  split at hm
  · cases hm
  · cases hm
  · rename_i body heading
    obtain ⟨b, rest, rfl, first⟩ : ∃ b rest, body = b :: rest ∧ (Char.ofNat b.toNat).toLower ≠ 'c' ∧
        (Char.ofNat b.toNat).toLower ≠ 'e' := by
      split at hm
      · rename_i condition
        exact conditionOf_first condition
      · cases hm
    exact ⟨b, rest ++ ends, by rw [parts, heading_untagged heading]; rfl, first⟩
  · rw [Option.map_eq_some_iff] at hm
    obtain ⟨_, -, h⟩ := hm
    cases h

end Line

namespace Capabilities

def row (names : List Capability) : List UInt8 := names.flatMap fun n => Line.space :: n.bytes

def offer (names : List Capability) : Response where
  message := .data (.atom word :: names.map fun n => .atom n.text)
  raw := Utf8.encode "* CAPABILITY" ++ row names ++ [Token.cr, Token.lf]

theorem others_row (names : List Capability) :
    Token.Others (names.map fun n => .atom n.text) (row names) := by
  induction names with
  | nil => exact .nil
  | cons n names ih =>
    have nonempty : n.bytes ≠ [] := by
      rw [n.bytes_eq]
      simpa using n.nonempty
    have all : ∀ b ∈ n.bytes, Token.isAtomByte b = true := by
      intro b hb
      obtain ⟨c, hc, rfl⟩ := Capability.mem_bytes hb
      exact (Capability.byte_name hc).2.1
    have spelt := Token.Spells.atom nonempty all
    rw [Capability.bytes, Utf8.decode_encode] at spelt
    have gap : ∀ b ∈ [Line.space], Token.isGap b = true := List.all_eq_true.1 (by decide)
    have spaced := Token.Others.cons (by simp) gap spelt ih
    exact spaced

theorem row_offer (names : List Capability) :
    Token.Row (.atom word :: names.map fun n => .atom n.text) (Utf8.encode word ++ row names) := by
  have spelt : Token.Spells (.atom (Utf8.decode (Utf8.encode word))) (Utf8.encode word) :=
    .atom (by decide) (List.all_eq_true.1 (by decide))
  rw [Utf8.decode_encode] at spelt
  exact .cons spelt (others_row names)

@[simp] theorem response_offer (names : List Capability) :
    Line.response? (offer names).raw = some (offer names) := by
  have heading : Line.heading? (Utf8.encode "* CAPABILITY" ++ row names) =
      some (.untagged, Utf8.encode word ++ row names) := rfl
  have plain : Line.conditionOf? (Utf8.encode word ++ row names) = none := by
    refine Token.conditionOf_row (row_offer names) fun w hw => ?_
    obtain rfl : word = w := by simpa using hw
    decide
  rw [Line.response?, offer, Framer.chomp_crlf, Line.messageOf?, heading]
  dsimp only
  rw [plain, Token.ofBytes_row (row_offer names)]
  rfl

theorem mem_row {names : List Capability} {b : UInt8} (h : b ∈ row names) :
    b ≠ Token.openCount ∧ b ≠ Token.lf := by
  obtain ⟨n, -, hb⟩ := List.mem_flatMap.1 h
  cases List.mem_cons.1 hb with
  | inl space => rw [space]; decide
  | inr hb =>
    obtain ⟨c, hc, rfl⟩ := Capability.mem_bytes hb
    obtain ⟨-, atom, -, -, line⟩ := Capability.byte_name hc
    refine ⟨fun brace => ?_, line⟩
    rw [brace] at atom
    contradiction

theorem whole_offer (names : List Capability) : (offer names).Whole := by
  have clean : Token.openCount ∉ Utf8.encode "* CAPABILITY" ∧
      Token.lf ∉ Utf8.encode "* CAPABILITY" := by decide
  have body : ∀ b ∈ Utf8.encode "* CAPABILITY" ++ row names, b ≠ Token.openCount ∧ b ≠ Token.lf := by
    intro b hb
    cases List.mem_append.1 hb with
    | inl h => exact ⟨fun same => clean.1 (same ▸ h), fun same => clean.2 (same ▸ h)⟩
    | inr h => exact mem_row h
  refine Framer.whole_of_line ?_ ?_ (response_offer names)
  · refine ⟨Utf8.encode "* CAPABILITY" ++ row names ++ [Token.cr], ?_, ?_⟩
    · simp [offer, Stream.lf, Token.lf]
    intro h
    cases List.mem_append.1 h with
    | inl h => exact (body _ h).2 rfl
    | inr h => exact absurd (List.mem_singleton.1 h) (by decide)
  · refine Framer.announced_none ?_
    rintro ⟨n, before, digits, h, -⟩
    exact (body Token.openCount (by rw [h]; simp)).1 rfl

/-- What stands behind a name: a space, or the line end. -/
def Parted (r : List UInt8) : Prop := ∃ b s, r = b :: s ∧ (b = Line.space ∨ b = Token.cr)

theorem parted_row (names : List Capability) : Parted (row names ++ [Token.cr, Token.lf]) := by
  cases names with
  | nil => exact ⟨_, _, rfl, .inr rfl⟩
  | cons n names => exact ⟨_, _, rfl, .inl rfl⟩

/-- A word at the front of a name is a part of the name. -/
theorem dropWord_bytes {w : String} {n : Capability} {r rest : List UInt8} (parted : Parted r)
    (clean : ' ' ∉ w.toList.map Char.toLower ∧ '\r' ∉ w.toList.map Char.toLower)
    (h : dropWord? w (n.bytes ++ r) = some rest) : ∃ pre suf, n.text.toList = pre ++ suf ∧
      pre.map Char.toLower = w.toList.map Char.toLower ∧
      rest = suf.map (fun c => UInt8.ofNat c.toNat) ++ r := by
  have back : ∀ cs : List Char, (∀ c ∈ cs, isNameChar c) →
      (cs.map fun c => UInt8.ofNat c.toNat).map (fun b => Char.ofNat b.toNat) = cs := by
    intro cs hcs
    rw [List.map_map]
    refine (List.map_congr_left fun c hc => ?_).trans (List.map_id _)
    have := Capability.small (hcs c hc)
    simp only [Function.comp_apply, id, Utf8.toNat_byte (show c.toNat < 256 by omega), Char.ofNat_toNat]
  unfold dropWord? at h
  simp only at h
  split at h
  · rename_i found
    obtain ⟨enough, same⟩ := found
    obtain rfl := Option.some.inj h
    rw [n.bytes_eq] at same enough ⊢
    simp only [Ascii.sameName, String.toList_ofList, beq_iff_eq] at same
    by_cases inside : w.length ≤ n.text.toList.length
    · rw [List.take_append_of_le_length (by simpa using inside), ← List.map_take,
        back _ fun c hc => n.chars c (List.mem_of_mem_take hc)] at same
      refine ⟨_, _, (List.take_append_drop w.length _).symm, same, ?_⟩
      rw [List.drop_append_of_le_length (by simpa using inside), List.map_drop]
    · obtain ⟨b, s, rfl, sep⟩ := parted
      obtain ⟨k, hk⟩ : ∃ k, w.length = n.text.toList.length + (k + 1) :=
        ⟨w.length - n.text.toList.length - 1, by omega⟩
      have reached : (Char.ofNat b.toNat).toLower ∈ w.toList.map Char.toLower := by
        rw [← same, hk]
        refine List.mem_map_of_mem (List.mem_map_of_mem (f := fun b : UInt8 => Char.ofNat b.toNat) ?_)
        simp [List.take_append]
      cases sep with
      | inl space => rw [space] at reached; exact absurd reached clean.1
      | inr line => rw [line] at reached; exact absurd reached clean.2
  · cases h

theorem ends_parted {r : List UInt8} (parted : Parted r) : Splitting.Ends isAtomByte r := by
  obtain ⟨b, s, rfl, sep⟩ := parted
  cases sep with
  | inl space => rw [space]; exact (Splitting.ends_cons _ _ _).2 (by decide)
  | inr line => rw [line]; exact (Splitting.ends_cons _ _ _).2 (by decide)

/-- Characters of a name are read as an atom. -/
theorem atom_chars {cs : List Char} {r : List UInt8} (nonempty : cs ≠ [])
    (spelled : ∀ c ∈ cs, isNameChar c) (parted : Parted r) :
    atom? (cs.map (fun c => UInt8.ofNat c.toNat) ++ r) = some (String.ofList cs, r) := by
  have run : ∀ b ∈ cs.map fun c => UInt8.ofNat c.toNat, isAtomByte b = true := by
    intro b hb
    obtain ⟨c, hc, rfl⟩ := List.mem_map.1 hb
    exact (Capability.byte_name (spelled c hc)).1
  have taken := Splitting.takeWhile_run run (ends_parted parted)
  have some : cs.map (fun c => UInt8.ofNat c.toNat) ≠ [] := by simpa using nonempty
  have text : Utf8.decode (cs.map fun c => UInt8.ofNat c.toNat) = String.ofList cs := by
    rw [← Utf8.encodeChars_small fun c hc => Capability.small (spelled c hc)]
    have read := Utf8.decode_encode (String.ofList cs)
    rwa [Utf8.encode, String.toList_ofList] at read
  simp only [atom?, taken, some, if_false, text, List.drop_left]

theorem atom_parted {r : List UInt8} (parted : Parted r) : atom? r = none := by
  have none := @Splitting.takeWhile_run _ isAtomByte [] r (by simp) (ends_parted parted)
  rw [List.nil_append] at none
  simp only [atom?, none, if_true]

/-- A name is read to its end, up to letter case, or not as far as a space or a line end. -/
theorem offered_bytes (n : Capability) {r : List UInt8} (parted : Parted r) :
    ∃ name left, offered? (n.bytes ++ r) = some (name, left) ∧
      ((left = r ∧ Ascii.lower name = n.lower) ∨
        ∃ b s, left = b :: s ∧ b ≠ Line.space ∧ b ≠ Token.cr) := by
  have whole : atom? (n.bytes ++ r) = some (n.text, r) := by
    have read := atom_chars n.nonempty n.chars parted
    rwa [← n.bytes_eq, String.ofList_toList] at read
  have plain : ' ' ∉ revision.toList.map Char.toLower ∧ '\r' ∉ revision.toList.map Char.toLower := by
    decide
  have plain' : ' ' ∉ mechanismMark.toList.map Char.toLower ∧
      '\r' ∉ mechanismMark.toList.map Char.toLower := by decide
  unfold offered?
  cases hrev : dropWord? revision (n.bytes ++ r) with
  | some rest =>
    obtain ⟨pre, suf, parts, same, rfl⟩ := dropWord_bytes parted plain hrev
    refine ⟨_, _, rfl, ?_⟩
    cases suf with
    | nil => exact .inl ⟨rfl, by simp [Ascii.lower, Capability.lower, parts, same]⟩
    | cons c cs =>
      have hc := Capability.byte_name (n.chars c (by rw [parts]; simp))
      exact .inr ⟨_, _, rfl, hc.2.2.1, hc.2.2.2.1⟩
  | none =>
    cases hmark : dropWord? mechanismMark (n.bytes ++ r) with
    | none =>
      simp only [Option.bind_none, whole]
      exact ⟨_, _, rfl, .inl ⟨rfl, rfl⟩⟩
    | some rest =>
      obtain ⟨pre, suf, parts, same, rfl⟩ := dropWord_bytes parted plain' hmark
      cases suf with
      | nil =>
        simp only [Option.bind_some, List.map_nil, List.nil_append, atom_parted parted, whole]
        exact ⟨_, _, rfl, .inl ⟨rfl, rfl⟩⟩
      | cons c cs =>
        have spelled : ∀ d ∈ c :: cs, isNameChar d := fun d hd =>
          n.chars d (by rw [parts]; exact List.mem_append_right _ hd)
        simp only [Option.bind_some, atom_chars (List.cons_ne_nil c cs) spelled parted]
        exact ⟨_, _, rfl, .inl ⟨rfl, by simp [Ascii.lower, Capability.lower, parts, same]⟩⟩

/-- If the strict grammar takes a row of names to its end, it says these names. -/
theorem strictNames_row (names : List Capability) {ns : List String} {left : List UInt8}
    (h : strictNames .offered (row names ++ [Token.cr, Token.lf]) = (ns, left))
    (closed : ∃ s, left.dropWhile (· = Line.space) = Token.cr :: s) :
    ns.map Ascii.lower = names.map Capability.lower := by
  induction names generalizing ns with
  | nil =>
    have ends : strictNames .offered [Token.cr, Token.lf] = ([], [Token.cr, Token.lf]) := by
      rw [strictNames, if_neg (by decide)]
    obtain ⟨rfl, -⟩ := Prod.mk.inj (ends.symm.trans h)
    rfl
  | cons n names ih =>
    obtain ⟨name, left', read, goes⟩ := offered_bytes n (parted_row names)
    have parts : row (n :: names) ++ [Token.cr, Token.lf] =
        Line.space :: (n.bytes ++ (row names ++ [Token.cr, Token.lf])) := by simp [row]
    rw [parts, strictNames, if_pos rfl] at h
    split at h
    · rename_i missed
      rw [strictName?, read] at missed
      contradiction
    · rename_i name' rest found
      rw [strictName?, read] at found
      obtain ⟨rfl, rfl⟩ := Prod.mk.inj (Option.some.inj found)
      rcases hs : strictNames .offered left' with ⟨others, end_⟩
      rw [hs] at h
      obtain ⟨rfl, rfl⟩ := Prod.mk.inj h
      rcases goes with ⟨rfl, same⟩ | ⟨b, s, rfl, notSpace, notLine⟩
      · rw [List.map_cons, List.map_cons, same, ih hs]
      · rw [strictNames, if_neg notSpace] at hs
        obtain ⟨-, rfl⟩ := Prod.mk.inj hs
        obtain ⟨_, stops⟩ := closed
        simp [notSpace, notLine] at stops

@[simp] theorem heading_offer (names : List Capability) :
    heading? (offer names).raw = some (.offered, row names ++ [Token.cr, Token.lf]) := by
  have opens : dropWord? ("* " ++ word) (offer names).raw =
      some (row names ++ [Token.cr, Token.lf]) := by
    have count : ("* " ++ word).length = (Utf8.encode "* CAPABILITY").length := by decide
    have same : Ascii.sameName (String.ofList ((Utf8.encode "* CAPABILITY").map
        fun b => Char.ofNat b.toNat)) ("* " ++ word) := by decide
    simp only [dropWord?, offer, List.append_assoc, count, List.take_left, same, List.drop_left,
      and_self, if_true]
  rw [heading?, opens]

def plain (r : Response) : List String :=
  (r.tokens.filterMap Token.value?).filter fun t => !Ascii.sameName t word

@[simp] theorem plain_offer (names : List Capability) :
    plain (offer names) = names.map Capability.text := by
  have tokens : (offer names).tokens.filterMap Token.value? = word :: names.map Capability.text := by
    simp [Response.tokens, offer, Token.value?, Function.comp_def]
  have others : (names.map Capability.text).filter (fun t => !Ascii.sameName t word) =
      names.map Capability.text := by
    refine List.filter_eq_self.2 fun t ht => ?_
    obtain ⟨n, -, rfl⟩ := List.mem_map.1 ht
    rw [n.other]
    rfl
  have keyword : Ascii.sameName word word = true := by decide
  simp only [plain, tokens, List.filter_cons, keyword, others]
  simp

theorem strictLine_offer {names : List Capability} {ns : List String}
    (strict : strictLine? (offer names).raw = some ns) :
    ns.map Ascii.lower = names.map Capability.lower := by
  rcases hs : strictNames .offered (row names ++ [Token.cr, Token.lf]) with ⟨ns', left⟩
  simp only [strictLine?, heading_offer, hs] at strict
  split at strict
  · rename_i a b r stops
    split at strict
    · rename_i closed
      obtain rfl := Option.some.inj strict
      exact strictNames_row names hs ⟨b :: r, by rw [stops, closed.1]⟩
    · cases strict
  · cases strict

/-- Read to the letter or by its tokens, a line offers the names on it. -/
theorem ofLine_offer (names : List Capability) :
    (ofLine (offer names)).map Ascii.lower = names.map Capability.lower := by
  cases strict : strictLine? (offer names).raw with
  | some ns =>
    simp only [ofLine, strict]
    exact strictLine_offer strict
  | none =>
    have tokens : ofLine (offer names) = plain (offer names) := by simp only [ofLine, strict, plain]
    rw [tokens, plain_offer, List.map_map]
    rfl

/-- A word is not dropped from what has another letter in its place. -/
theorem dropWord_other {word : String} {b : UInt8} (x y : UInt8) (rest : List UInt8)
    (long : 2 < word.length)
    (other : (word.toList.map Char.toLower)[2]? ≠ some (Char.ofNat b.toNat).toLower) :
    dropWord? word (x :: y :: b :: rest) = none := by
  unfold dropWord?
  dsimp only
  refine if_neg fun found => other ?_
  have same := found.2
  rw [Ascii.sameName, beq_iff_eq, String.toList_ofList] at same
  obtain ⟨n, hn⟩ : ∃ n, word.length = n + 3 := ⟨word.length - 3, by omega⟩
  rw [← same, hn]
  rfl

/-- An untagged condition is nothing to the strict grammar. -/
theorem strictLine_condition {raw : List UInt8} {r : Response} {c : Condition}
    (read : Line.response? raw = some r) (status : r.message = .untagged c) :
    strictLine? raw = none := by
  obtain ⟨b, rest, rfl, notOffer, notEnabled⟩ := Line.untagged_first read status
  have offered : dropWord? ("* " ++ word) (Line.star :: Line.space :: b :: rest) = none :=
    dropWord_other _ _ rest (by decide) fun same => notOffer (Option.some.inj same).symm
  have enabled : dropWord? ("* " ++ enabledWord) (Line.star :: Line.space :: b :: rest) = none :=
    dropWord_other _ _ rest (by decide) fun same => notEnabled (Option.some.inj same).symm
  simp only [strictLine?, heading?, offered, enabled, Option.map_none]

theorem plain_condition {r : Response} {c : Condition} (status : r.message = .untagged c) :
    plain r = [] := by
  simp only [plain, Response.tokens, status, List.filterMap_nil, List.filter_nil]

/-- An untagged condition offers nothing. -/
theorem ofLine_condition {raw : List UInt8} {r : Response} {c : Condition}
    (read : Line.response? raw = some r) (status : r.message = .untagged c) : ofLine r = [] := by
  have strict := strictLine_condition read status
  rw [← Framer.raw_of_response read] at strict
  have tokens : ofLine r = plain r := by simp only [ofLine, strict, plain]
  rw [tokens, plain_condition status]

def listed (rs : List Response) : List String :=
  ((rs.filter Response.isUntagged).flatMap ofLine).map Ascii.lower

@[simp] theorem listed_append (rs rs' : List Response) :
    listed (rs ++ rs') = listed rs ++ listed rs' := by
  simp only [listed, List.filter_append, List.flatMap_append, List.map_append]

theorem listed_cons (r : Response) (rs : List Response) : listed (r :: rs) = listed [r] ++ listed rs :=
  listed_append [r] rs

theorem listed_offer (names : List Capability) : listed [offer names] = names.map Capability.lower := by
  have untagged : (offer names).isUntagged = true := rfl
  simp only [listed, List.filter_cons, untagged, if_true, List.filter_nil, List.flatMap_singleton,
    ofLine_offer]

theorem sameName_lower (a b : String) : Ascii.sameName a b = (Ascii.lower a == Ascii.lower b) := by
  rw [Bool.eq_iff_iff, beq_iff_eq, Ascii.sameName, beq_iff_eq, Ascii.lower, Ascii.lower,
    ← String.toList_inj, String.toList_ofList, String.toList_ofList]

theorem isDisabled_lower (disabled : List String) (name : String) :
    isDisabled disabled name = (disabled.map Ascii.lower).contains (Ascii.lower name) := by
  rw [Bool.eq_iff_iff]
  simp [isDisabled, sameName_lower]

/-- Of some names those that were not switched off can be found, and no other. -/
theorem has_sifted (names disabled : List String) (name : String) :
    has ⟨(names.filter fun n => !isDisabled disabled n).eraseDups⟩ name =
      ((names.map Ascii.lower).filter fun n => !(disabled.map Ascii.lower).contains n).contains
        (Ascii.lower name) := by
  rw [has, Bool.eq_iff_iff]
  simp only [List.any_eq_true, List.mem_eraseDups, List.mem_filter, sameName_lower, isDisabled_lower,
    beq_iff_eq, List.contains_iff_mem, List.mem_map, Bool.not_eq_true', ← Bool.not_eq_true]
  constructor
  · rintro ⟨n, ⟨mem, on⟩, same⟩
    exact ⟨⟨n, mem, same⟩, same ▸ on⟩
  · rintro ⟨⟨n, mem, same⟩, on⟩
    exact ⟨n, ⟨mem, same ▸ on⟩, same⟩

theorem has_ofResponses (rs : List Response) (disabled : List String) (name : String) :
    (ofResponses rs disabled).has name =
      ((listed rs).filter fun n => !(disabled.map Ascii.lower).contains n).contains
        (Ascii.lower name) :=
  has_sifted _ disabled name

end Capabilities

end ImapSession
