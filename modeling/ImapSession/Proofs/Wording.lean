import ImapSession.Proofs.Calling
import ImapSession.Proofs.Hearing

/-!
How the login command reads. Of a user name or a password with a line end in it nothing is
written; any other is written on one line. By the grammar of data lines that line reads as
the tag, the word, the user name and the password if the user name can stand as an atom, and
only then: the password is put between quotes, the user name is written as it is.
-/
namespace ImapSession

def Atomic (s : String) : Prop :=
  Utf8.encode s ≠ [] ∧ ∀ b ∈ Utf8.encode s, Token.isAtomByte b = true

instance (s : String) : Decidable (Atomic s) :=
  decidable_of_iff (Utf8.encode s ≠ [] ∧ (Utf8.encode s).all Token.isAtomByte = true)
    (by rw [List.all_eq_true, Atomic])

/-- What the tokens of a line hold when it is read as data. -/
def argumentsOf (line : String) : Option (List (Option String)) :=
  (Line.response? (Link.wire ("* " ++ line))).map fun r => r.tokens.map Token.value?

namespace Token

variable {n : Nat} {t : Token} {bytes r : List UInt8}

theorem isAtomByte_small {b : UInt8} (h : isAtomByte b = true) : b.toNat < 0x80 := by
  simp only [isAtomByte, Bool.and_eq_true, decide_eq_true_eq, UInt8.lt_iff_toNat_lt] at h
  have below := h.1.1.1.1.2
  simp only [UInt8.reduceToNat] at below
  omega

/-- A digit may stand in an atom, and is no letter. -/
theorem atom_of_digit {b : UInt8} (h : Ascii.isDigit b = true) :
    isAtomByte b = true ∧ Ascii.isLetter b = false := by
  have all : ∀ v < 10, isAtomByte (UInt8.ofNat (0x30 + v)) = true ∧
      Ascii.isLetter (UInt8.ofNat (0x30 + v)) = false := by decide
  simp only [Ascii.isDigit, Bool.and_eq_true, decide_eq_true_eq, UInt8.le_iff_toNat_le,
    UInt8.reduceToNat] at h
  have read := all (b.toNat - 0x30) (by omega)
  rwa [Nat.add_sub_cancel' h.1, UInt8.ofNat_toNat] at read

/-- A literal has a line end in it. -/
theorem lf_of_literal {data : List UInt8} (h : literal bytes = some (data, r)) : lf ∈ bytes := by
  unfold literal at h
  dsimp only at h
  split at h
  · rename_i cut
    split at h
    · rename_i counted
      have member : lf ∈ bytes.drop (bytes.takeWhile Ascii.isDigit).length := by
        rw [cut, ← counted.2.2.2]
        simp
      exact List.mem_of_mem_drop member
    · cases h
  · cases h

/-- On one line a first token is a list, a quoted text or an atom. -/
theorem first_read (h : first n bytes = some (t, r)) (line : ∀ b ∈ bytes, b ≠ lf) :
    (∃ ts, t = .list ts) ∨
    (∃ s data, bytes = quote :: s ∧ quotedOnto [] s = some (data, r) ∧
      t = .text (Utf8.decode data)) ∨
    ∃ name, name ≠ [] ∧ (∀ b ∈ name, isAtomByte b = true) ∧ t = .atom (Utf8.decode name) := by
  cases n with
  | zero => cases h
  | succ n =>
    cases bytes with
    | nil => cases h
    | cons b s =>
      rw [first] at h
      split at h
      · left
        dsimp only at h
        split at h
        · split at h
          · obtain ⟨rfl, -⟩ := Prod.mk.inj (Option.some.inj h)
            exact ⟨_, rfl⟩
          · cases h
        · cases h
      split at h
      · obtain ⟨⟨data, s'⟩, counted, -⟩ := Option.map_eq_some_iff.1 h
        exact absurd rfl (line lf (List.mem_cons_of_mem _ (lf_of_literal counted)))
      split at h
      · rename_i quoted
        obtain ⟨⟨data, s'⟩, made, same⟩ := Option.map_eq_some_iff.1 h
        obtain ⟨rfl, rfl⟩ := Prod.mk.inj same
        exact .inr (.inl ⟨s, data, by rw [quoted], made, rfl⟩)
      split at h
      · rename_i atom
        obtain ⟨rfl, -⟩ := Prod.mk.inj (Option.some.inj h)
        refine .inr (.inr ⟨(b :: s).takeWhile isAtomByte, ?_, fun x hx => ?_, rfl⟩)
        · rw [List.takeWhile_cons_of_pos atom]
          exact List.cons_ne_nil _ _
        · exact List.mem_takeWhile_imp hx
      · cases h

/-- Of the bytes of a character none but the first can be a quote or a backslash. -/
theorem encodeChar_cons (c : Char) : ∃ b rest, String.utf8EncodeChar c = b :: rest ∧
    ∀ x ∈ rest, x ≠ quote ∧ x ≠ backslash := by
  by_cases mark : c = '"' ∨ c = '\\'
  · rcases mark with rfl | rfl
    · exact ⟨quote, [], by decide, nofun⟩
    · exact ⟨backslash, [], by decide, nofun⟩
  · cases spelt : String.utf8EncodeChar c with
    | nil =>
      have length := c.utf8Size_pos
      rw [← String.length_utf8EncodeChar, spelt] at length
      cases length
    | cons b rest =>
      refine ⟨b, rest, rfl, fun x hx => Draft.plain_of_mem ?_ mark⟩
      rw [spelt]
      exact List.mem_cons_of_mem _ hx

theorem quotedOnto_plain {u : List UInt8} (plain : ∀ b ∈ u, b ≠ quote ∧ b ≠ backslash)
    (done r : List UInt8) : quotedOnto done (u ++ r) = quotedOnto (u.reverse ++ done) r := by
  induction u generalizing done with
  | nil => rfl
  | cons b u ih =>
    obtain ⟨unquoted, unescaped⟩ := plain b (List.mem_cons_self ..)
    rw [List.cons_append, quotedOnto.eq_def]
    simp only [if_neg unquoted, if_neg unescaped]
    rw [ih fun c hc => plain c (List.mem_cons_of_mem _ hc)]
    simp

/-- A text that is read up to some quote, or up to an earlier one, has no more quotes in it
than there are before that quote. -/
theorem quotedOnto_closes : ∀ (cs : List Char) (done w : List UInt8), ∃ (ds : List Char) (r : _),
    quotedOnto done (cs.flatMap String.utf8EncodeChar ++ Line.space :: quote :: w) =
      some (done.reverse ++ ds.flatMap String.utf8EncodeChar, r) ∧
    ds.count '"' ≤ cs.count '"'
  | [], done, w => by
    have blank : String.utf8EncodeChar ' ' = [Line.space] := by decide
    refine ⟨[' '], w, ?_, by simp⟩
    rw [List.flatMap_nil, List.nil_append, ← List.singleton_append,
      quotedOnto_plain (by simp [quote, backslash, Line.space]), quotedOnto.eq_def]
    simp [blank]
  | c :: cs, done, w => by
    by_cases quoted : c = '"'
    · subst quoted
      have mark : String.utf8EncodeChar '"' = [quote] := by decide
      refine ⟨[], cs.flatMap String.utf8EncodeChar ++ Line.space :: quote :: w, ?_, by simp⟩
      rw [List.flatMap_cons, mark, List.append_assoc, List.singleton_append, quotedOnto.eq_def]
      simp
    by_cases escaped : c = '\\'
    · subst escaped
      have mark : String.utf8EncodeChar '\\' = [backslash] := by decide
      have marks : backslash ≠ quote := by decide
      rw [List.flatMap_cons, mark, List.append_assoc, List.singleton_append, quotedOnto.eq_def]
      simp only [if_neg marks, if_true]
      cases cs with
      | nil =>
        have blank : String.utf8EncodeChar ' ' = [Line.space] := by decide
        refine ⟨[' '], w, ?_, by simp⟩
        rw [List.flatMap_nil, List.nil_append]
        dsimp only
        rw [quotedOnto.eq_def]
        simp [blank]
      | cons d cs =>
        obtain ⟨b, rest, spelt, plain⟩ := encodeChar_cons d
        obtain ⟨ds, r, made, fewer⟩ := quotedOnto_closes cs (rest.reverse ++ b :: done) w
        refine ⟨d :: ds, r, ?_, ?_⟩
        · rw [List.flatMap_cons, spelt, List.append_assoc, List.cons_append]
          dsimp only
          rw [quotedOnto_plain plain, made]
          simp [spelt]
        · simp only [List.count_cons]
          omega
    · obtain ⟨ds, r, made, fewer⟩ :=
        quotedOnto_closes cs ((String.utf8EncodeChar c).reverse ++ done) w
      have plain : ∀ b ∈ String.utf8EncodeChar c, b ≠ quote ∧ b ≠ backslash := fun b hb =>
        Draft.plain_of_mem hb (by simp [quoted, escaped])
      refine ⟨c :: ds, r, ?_, ?_⟩
      · rw [List.flatMap_cons, List.append_assoc, quotedOnto_plain plain, made]
        simp
      · simp only [List.count_cons]
        omega

theorem more_cases (n : Nat) (bytes : List UInt8) : (more n bytes).1 = [] ∨
    ∃ m t r ts, first m (bytes.dropWhile isGap) = some (t, r) ∧ (more n bytes).1 = t :: ts := by
  cases n with
  | zero => exact .inl rfl
  | succ n =>
    rw [more]
    split
    · exact .inl rfl
    · cases one : first n (bytes.dropWhile isGap) with
      | none => exact .inl rfl
      | some found => exact .inr ⟨n, found.1, found.2, _, one, rfl⟩

def remaining (n : Nat) (bytes : List UInt8) : List Token :=
  let tail := Blank.trim (Utf8.decode (more n bytes).2)
  (more n bytes).1 ++ if tail = "" then [] else [.atom tail]

theorem remaining_others {ts : List Token} (h : Others ts bytes) (deep : bytes.length < n) :
    remaining n bytes = ts := by
  have nothing : Blank.trim (Utf8.decode []) = "" := by decide
  have made := (reads n).2 ts bytes [] h deep (Splitting.ends_nil _) (Splitting.ends_nil _)
  rw [List.append_nil] at made
  simp [remaining, made, nothing]

/-- Where two things follow or more, the first of them is a token. -/
theorem remaining_first {ts : List Token} {t' : Token} (h : remaining n bytes = t :: t' :: ts) :
    ∃ m r, first m (bytes.dropWhile isGap) = some (t, r) := by
  unfold remaining at h
  rcases more_cases n bytes with none | ⟨m, t₁, r, ts₁, made, some⟩
  · rw [none] at h
    dsimp only at h
    split at h <;> simp at h
  · rw [some] at h
    obtain ⟨rfl, -⟩ := List.cons.inj h
    exact ⟨m, r, made⟩

/-- Two words are read as two atoms. -/
theorem ofBytes_words {a b rest : List UInt8} (someA : a ≠ []) (someB : b ≠ [])
    (allA : ∀ x ∈ a, isAtomByte x = true) (allB : ∀ x ∈ b, isAtomByte x = true)
    (ends : Splitting.Ends isAtomByte rest) : ∃ n, rest.length < n ∧
      ofBytes (a ++ Line.space :: (b ++ rest)) =
        .atom (Utf8.decode a) :: .atom (Utf8.decode b) :: remaining n rest := by
  have blank : Splitting.Ends isAtomByte (Line.space :: (b ++ rest)) := by
    simp [isAtomByte, Line.space]
  obtain ⟨m, depth⟩ : ∃ m, (a ++ Line.space :: (b ++ rest)).length = m + 1 :=
    ⟨a.length + (b ++ rest).length, by simp; omega⟩
  have deep : rest.length < m + 1 := by
    rw [← depth]
    simp
    omega
  have gap : ∀ x ∈ [Line.space], isGap x = true := by simp [isGap, Line.space]
  have start : Splitting.Ends isGap (b ++ rest) := (Spells.atom someB allB).ends_gap rest
  have word : more (m + 1 + 1) (Line.space :: (b ++ rest)) =
      (.atom (Utf8.decode b) :: (more (m + 1) rest).1, (more (m + 1) rest).2) := by
    rw [more, ← List.singleton_append, Splitting.takeWhile_run gap start,
      Splitting.dropWhile_run gap start, first_atom someB allB ends]
    rfl
  refine ⟨m + 1, deep, ?_⟩
  rw [ofBytes, several, depth, first_atom someA allA blank]
  dsimp only
  rw [word]
  unfold remaining
  dsimp only
  split <;> simp

/-- A text that is not all blank: the blanks in front, the first character that is none, and
the characters after it. -/
theorem visible_parts {cs : List Char} (visible : ¬ ∀ c ∈ cs, c = ' ' ∨ c = '\t') :
    ∃ blanks c v, cs = blanks ++ c :: v ∧ (∀ d ∈ blanks, d = ' ' ∨ d = '\t') ∧
      ¬ (c = ' ' ∨ c = '\t') := by
  let isBlank : Char → Bool := fun c => c = ' ' ∨ c = '\t'
  have parts : cs.takeWhile isBlank ++ cs.dropWhile isBlank = cs := List.takeWhile_append_dropWhile
  cases dropped : cs.dropWhile isBlank with
  | nil => exact absurd (by simpa [isBlank] using List.dropWhile_eq_nil_iff.1 dropped) visible
  | cons c v =>
    rw [dropped] at parts
    refine ⟨cs.takeWhile isBlank, c, v, parts.symm, fun d hd => ?_, ?_⟩
    · simpa [isBlank] using List.mem_takeWhile_imp hd
    · have stopped := List.head?_dropWhile_not isBlank cs
      rw [dropped] at stopped
      simpa [isBlank] using stopped

/-- The first byte of a character is a gap only if the character is a blank. -/
theorem gap_encodeChar {c : Char} {b : UInt8} (h : b ∈ String.utf8EncodeChar c)
    (gap : isGap b = true) : c = ' ' ∨ c = '\t' := by
  simp only [isGap, Bool.or_eq_true, beq_iff_eq] at gap
  rcases gap with rfl | rfl
  · exact .inl (Char.toNat_inj.1 (Utf8.toNat_of_mem_encodeChar h (by decide)))
  · exact .inr (Char.toNat_inj.1 (Utf8.toNat_of_mem_encodeChar h (by decide)))

theorem gap_of_blanks {blanks : List Char} (h : ∀ d ∈ blanks, d = ' ' ∨ d = '\t') :
    ∀ b ∈ blanks.flatMap String.utf8EncodeChar, isGap b = true := by
  intro b hb
  obtain ⟨d, hd, member⟩ := List.mem_flatMap.1 hb
  have all : (String.utf8EncodeChar ' ' ++ String.utf8EncodeChar '\t').all isGap = true := by decide
  rcases h d hd with rfl | rfl
  · exact List.all_eq_true.1 all b (List.mem_append_left _ member)
  · exact List.all_eq_true.1 all b (List.mem_append_right _ member)

/-- A name that is read from where it was written, in front of a quoted text, is an atom. A
quoted text would have lost its first quote. -/
theorem atomic_of_first {name : String} {w : List UInt8}
    (visible : ¬ ∀ c ∈ name.toList, c = ' ' ∨ c = '\t')
    (line : ∀ b ∈ Utf8.encode name ++ Line.space :: quote :: w, b ≠ lf)
    (h : first n ((Utf8.encode name ++ Line.space :: quote :: w).dropWhile isGap) = some (t, r))
    (read : t.value? = some name) : Atomic name := by
  obtain ⟨blanks, c, v, parts, blank, notBlank⟩ := visible_parts visible
  obtain ⟨b, rest, spelt, -⟩ := encodeChar_cons c
  have bytes : Utf8.encode name ++ Line.space :: quote :: w =
      blanks.flatMap String.utf8EncodeChar ++
        b :: (rest ++ (v.flatMap String.utf8EncodeChar ++ Line.space :: quote :: w)) := by
    simp [Utf8.encode, parts, spelt]
  have notGap : isGap b = false := by
    cases gap : isGap b with
    | false => rfl
    | true => exact absurd (gap_encodeChar (by simp [spelt]) gap) notBlank
  rw [bytes] at line
  rw [bytes, Splitting.dropWhile_run (gap_of_blanks blank) (by simpa using notGap)] at h
  rcases first_read h fun x hx => line x (List.mem_append_right _ hx) with
    ⟨ts, rfl⟩ | ⟨s, data, quoted, made, rfl⟩ | ⟨spelled, some, all, rfl⟩
  · cases read
  · obtain ⟨rfl, rfl⟩ := List.cons.inj quoted
    have member : quote ∈ String.utf8EncodeChar c := by simp [spelt]
    have mark : c = '"' := Char.toNat_inj.1 (Utf8.toNat_of_mem_encodeChar member (by decide))
    have alone : String.utf8EncodeChar '"' = [quote] := by decide
    rw [mark, alone] at spelt
    obtain ⟨-, rfl⟩ := List.cons.inj spelt
    obtain ⟨ds, r', closes, fewer⟩ := quotedOnto_closes v [] w
    rw [List.nil_append, closes] at made
    obtain ⟨rfl, -⟩ := Prod.mk.inj (Option.some.inj made)
    have held : name = String.ofList ds := by
      have decoded := Utf8.decode_encode (String.ofList ds)
      rw [Utf8.encode, String.toList_ofList] at decoded
      rw [← decoded]
      exact (Option.some.inj read).symm
    have quotes := congrArg (List.count '"') parts
    rw [held, String.toList_ofList, mark, List.count_append, List.count_cons_self] at quotes
    omega
  · have kept := Utf8.encode_decode_small fun x hx => isAtomByte_small (all x hx)
    rw [← Option.some.inj read, Atomic, kept]
    exact ⟨some, all⟩

end Token

namespace Op

open Token (quote)

variable {s : Scene} {k : Nat} {l : Link} {username password command : String}

def loginLine (t : UInt64) (username password : String) : String :=
  tagged t ("LOGIN " ++ username ++ " " ++ Quoted.encode password)

def given (username password : String) : List UInt8 :=
  Line.space :: (Utf8.encode username ++ Line.space :: Utf8.encode (Quoted.encode password))

theorem encode_loginLine (t : UInt64) (username password : String) :
    Utf8.encode (loginLine t username password) =
      Draft.numeral t.toNat ++ Line.space :: (Utf8.encode "LOGIN" ++ given username password) := by
  have blank : Utf8.encode " " = [Line.space] := by decide
  have word : Utf8.encode "LOGIN " = Utf8.encode "LOGIN" ++ [Line.space] := by decide
  simp [loginLine, tagged, given, blank, word, Draft.numeral]

/-- The line is read as data, for a number is no status word. -/
theorem argumentsOf_loginLine (t : UInt64) (username password : String) :
    ∃ n, (given username password).length < n ∧
      argumentsOf (loginLine t username password) = some (some (toString t.toNat) ::
        some "LOGIN" :: (Token.remaining n (given username password)).map Token.value?) := by
  let body := Utf8.encode (loginLine t username password)
  have digits : ∀ b ∈ Draft.numeral t.toNat, Token.isAtomByte b = true := fun b hb =>
    (Token.atom_of_digit (Draft.isDigit_of_mem_numeral hb)).1
  have word : Atomic "LOGIN" := by decide
  have ends : Splitting.Ends Token.isAtomByte (given username password) := by
    simp [given, Token.isAtomByte, Line.space]
  obtain ⟨n, deep, tokens⟩ :=
    Token.ofBytes_words (Draft.numeral_ne_nil t.toNat) word.1 digits word.2 ends
  rw [← encode_loginLine] at tokens
  have star : Utf8.encode "* " = [Line.star, Line.space] := by decide
  have chomped : Line.chomp (Link.wire ("* " ++ loginLine t username password)) =
      Line.star :: Line.space :: body := by
    rw [Link.wire, Utf8.encode_append, star]
    exact Framer.chomp_crlf (Line.star :: Line.space :: body)
  have heading : Line.heading? (Line.star :: Line.space :: body) = some (.untagged, body) := by
    simp [Line.heading?, Line.star, Line.plus]
  have data : Line.conditionOf? body = none := by
    have unnamed : Status.ofName? (Utf8.decode []) = none := by decide
    obtain ⟨b, rest, number⟩ := List.exists_cons_of_ne_nil (Draft.numeral_ne_nil t.toNat)
    have digit : Ascii.isDigit b = true :=
      Draft.isDigit_of_mem_numeral (n := t.toNat) (by simp [number])
    have letterless : body.takeWhile Ascii.isLetter = [] := by
      simp [body, encode_loginLine, number, (Token.atom_of_digit digit).2]
    rw [Line.conditionOf?, letterless, unnamed]
  have held : Utf8.decode (Draft.numeral t.toNat) = toString t.toNat := Utf8.decode_encode _
  refine ⟨n, deep, ?_⟩
  rw [argumentsOf, Line.response?, chomped, Line.messageOf?, heading]
  dsimp only
  rw [data, tokens, held, Utf8.decode_encode]
  rfl

/-- A name that can stand as an atom is read as it is, and so is the password behind it. -/
theorem others_given (atomic : Atomic username) (password : String) :
    Token.Others [.atom username, .text password] (given username password) := by
  have name := Token.Spells.atom atomic.1 atomic.2
  have text := Draft.spells (.quoted password)
  rw [Utf8.decode_encode] at name
  have last : Token.Others [.text password]
      ([Line.space] ++ (Utf8.encode (Quoted.encode password) ++ [])) :=
    .cons (by simp) (by simp [Token.isGap, Line.space]) text .nil
  have both : Token.Others [.atom username, .text password]
      ([Line.space] ++ (Utf8.encode username ++
        ([Line.space] ++ (Utf8.encode (Quoted.encode password) ++ [])))) :=
    .cons (by simp) (by simp [Token.isGap, Line.space]) name last
  simpa [given] using both

/-- Blanks are no name. -/
theorem others_blank (blank : ∀ c ∈ username.toList, c = ' ' ∨ c = '\t') (password : String) :
    Token.Others [.text password] (given username password) := by
  have text := Draft.spells (.quoted password)
  have gap : ∀ b ∈ Line.space :: (Utf8.encode username ++ [Line.space]),
      Token.isGap b = true := by
    have space : Token.isGap Line.space = true := by decide
    have name : ∀ b ∈ Utf8.encode username, Token.isGap b = true := Token.gap_of_blanks blank
    simpa [space, or_imp, forall_and] using name
  have only : Token.Others [.text password] (Line.space :: (Utf8.encode username ++ [Line.space]) ++
      (Utf8.encode (Quoted.encode password) ++ [])) := .cons (by simp) gap text .nil
  simpa [given] using only

theorem given_line (user : Flat username) (flat : Flat password) :
    ∀ b ∈ given username password, b ≠ Token.lf := by
  have all : Flat (" " ++ username ++ " " ++ Quoted.encode password) := by
    have blank : Flat " " := by simp [Flat]
    exact flat_append.2 ⟨flat_append.2 ⟨flat_append.2 ⟨blank, user⟩, blank⟩, flat_quoted flat⟩
  have blank : Utf8.encode " " = [Line.space] := by decide
  intro b hb
  refine (all.bytes b ?_).1
  simpa [given, blank] using hb

/-- The line reads as the tag, the word and these two just if the name can stand as an atom. -/
theorem loginLine_reads (t : UInt64) (user : Flat username) (flat : Flat password) :
    argumentsOf (loginLine t username password) =
      some [some (toString t.toNat), some "LOGIN", some username, some password] ↔
    Atomic username := by
  obtain ⟨n, deep, read⟩ := argumentsOf_loginLine t username password
  rw [read]
  constructor
  · intro same
    have values : (Token.remaining n (given username password)).map Token.value? =
        [some username, some password] := by simpa using same
    have visible : ¬ ∀ c ∈ username.toList, c = ' ' ∨ c = '\t' := by
      intro blank
      have passwordOnly := Token.remaining_others (others_blank blank password) deep
      rw [passwordOnly] at values
      simp at values
    obtain ⟨t₁, rest, two, first, others⟩ := List.map_eq_cons_iff.1 values
    obtain ⟨t₂, rest', rfl, -, -⟩ := List.map_eq_cons_iff.1 others
    obtain ⟨m, r, made⟩ := Token.remaining_first two
    have line := given_line user flat
    rw [given, Draft.encode_quoted] at line made
    rw [List.dropWhile_cons_of_pos (by decide)] at made
    exact Token.atomic_of_first visible (fun b hb => line b (List.mem_cons_of_mem _ hb)) made first
  · intro atomic
    rw [Token.remaining_others (others_given atomic password) deep]
    rfl

/-- A user name with a blank in it is written, and its second part is read as the password. -/
theorem loginLine_split :
    phrase "john doe" "secret" = .ok "LOGIN john doe \"secret\"" ∧
      argumentsOf (tagged 2 "LOGIN john doe \"secret\"") =
        some [some "2", some "LOGIN", some "john", some "doe", some "secret"] ∧
      ¬ ∀ (t : UInt64) (username password command : String),
        phrase username password = .ok command → argumentsOf (tagged t command) =
          some [some (toString t.toNat), some "LOGIN", some username, some password] := by
  have written : phrase "john doe" "secret" = .ok "LOGIN john doe \"secret\"" := by rfl
  have read : argumentsOf (tagged 2 "LOGIN john doe \"secret\"") =
      some [some "2", some "LOGIN", some "john", some "doe", some "secret"] := by decide +kernel
  refine ⟨written, read, fun always => ?_⟩
  have four := always 2 _ _ _ written
  rw [read] at four
  exact absurd (congrArg (Option.map List.length) four) (by decide)

/-- A command is handed to the link, and what is next is done if the link takes it. -/
theorem sendTagged_then {α : Type} (command : String) (next : Op α)
    (linked : s.session.link = some l) :
    let line := tagged (Opening.lastTag s + 1) command
    (do let _ ← sendTagged command true; next) s =
      (do settle ((l.write line).1.mapError .link); next)
        (s.drawn.handed l line (tagged (Opening.lastTag s + 1) redacted)) := by
  intro line
  have sent : sendTagged command true s =
      ending (((l.write line).1.mapError .link).map fun _ => toString (Opening.lastTag s + 1).toNat)
        (s.drawn.handed l line (tagged (Opening.lastTag s + 1) redacted)) :=
    sendTagged_handed command true linked
  cases hw : (l.write line).1 with
  | ok u =>
    rw [hw] at sent
    rw [bind_ok sent]
    rfl
  | error f =>
    rw [hw] at sent
    rw [bind_error sent]
    rfl

/-- The login command is that of the account, whether it was kept or is built now. -/
theorem loginPhrase_kept (bound : s.session.account = some k) (kept : Opening.PhraseKept s) :
    loginPhrase s =
      match (s.world.accounts k).phrase with
      | .ok q => .ok q { s with session := { s.session with loginPhrase := some q } }
      | .error e => .error e s := by
  cases hq : s.session.loginPhrase with
  | none =>
    have found : loginPhrase s = newPhrase s := by rw [loginPhrase, hq]
    exact found.trans (newPhrase_eq bound)
  | some q =>
    have same : { s with session := { s.session with loginPhrase := some q } } = s := by rw [← hq]
    have built : (s.world.accounts k).phrase = .ok q := kept k q bound hq
    rw [built, loginPhrase, hq]
    dsimp only
    rw [same]

/-- A login with a user name and a password that fit on a line hands one line to the link,
and a server that reads it finds just these two in it if the user name can stand as an atom,
and only then. If one of the two does not fit, the login is refused with the first character
that ends a line, and nothing is done. -/
theorem plainLogin_reads (bound : s.session.account = some k)
    (held : (s.world.accounts k).credentials = .ok (username, password))
    (kept : Opening.PhraseKept s) (linked : s.session.link = some l) :
    match phrase username password with
    | .error e => (∃ c, e = .character c ∧ (Quoted.lineEnd? username = some c ∨
        Flat username ∧ Quoted.lineEnd? password = some c)) ∧ plainLogin s = .error e s
    | .ok command =>
      let tag := Opening.lastTag s + 1
      let line := tagged tag command
      let s' : Scene := { s with session := { s.session with loginPhrase := some command } }
      Flat line ∧
        (argumentsOf line =
            some [some (toString tag.toNat), some "LOGIN", some username, some password] ↔
          Atomic username) ∧
        plainLogin s = (do settle ((l.write line).1.mapError .link); let _ ← collect)
          (s'.drawn.handed l line (tagged tag redacted)) := by
  have account : (s.world.accounts k).phrase = phrase username password := by
    rw [Account.phrase, held]
    rfl
  have made := loginPhrase_kept bound kept
  rw [account] at made
  cases hp : phrase username password with
  | error e =>
    rw [hp] at made
    refine ⟨phrase_error.1 hp, ?_⟩
    rw [plainLogin, bind_error made]
  | ok command =>
    rw [hp] at made
    obtain ⟨user, flat, spelt⟩ := phrase_ok.1 hp
    dsimp only
    have reads := loginLine_reads (Opening.lastTag s + 1) user flat
    rw [loginLine, ← spelt] at reads
    refine ⟨flat_tagged (flat_phrase hp) _, reads, ?_⟩
    rw [plainLogin, bind_ok made, run, bind_assoc]
    exact sendTagged_then command _ linked

/-- The user name is read as it is, and the line goes over the link. -/
theorem plainLogin_reads_user : sampleFacing.session.account = some 0 ∧
    (sampleFacing.world.accounts 0).credentials = .ok ("user", "secret") ∧
    Opening.PhraseKept sampleFacing ∧ sampleFacing.session.link = some sampleLink ∧
    phrase "user" "secret" = .ok "LOGIN user \"secret\"" ∧
    argumentsOf "1 LOGIN user \"secret\"" =
      some [some "1", some "LOGIN", some "user", some "secret"] ∧
    (match plainLogin sampleFacing with
      | .ok _ t => linesOf t.world.log
      | .error _ t => linesOf t.world.log) = ["1 LOGIN user \"secret\""] := by
  have held : (sampleFacing.world.accounts 0).credentials = .ok ("user", "secret") := rfl
  have built : phrase "user" "secret" = .ok "LOGIN user \"secret\"" := by rfl
  have kept : Opening.PhraseKept sampleFacing := fun k q _ hq => by cases hq
  have reads := plainLogin_reads (s := sampleFacing) (l := sampleLink) rfl held kept rfl
  rw [built] at reads
  refine ⟨rfl, held, kept, rfl, built, reads.2.1.2 (by decide), ?_⟩
  rw [reads.2.2]
  decide +kernel

end Op

end ImapSession
