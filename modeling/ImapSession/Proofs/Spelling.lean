import ImapSession.Proofs.Phrasing

/-!
The ways to write tokens. An atom is a run of its bytes; a text is quoted, or counted;
a list is a row between parentheses, and the members of a row are kept apart by gaps.
Reading a row, as it stands or in front of something that cannot go on with it, gives
its tokens and nothing else.
-/
namespace ImapSession.Token

/-- What stands between the quotes for some bytes: a backslash may be put before any
of them, and has to be before a quote and before a backslash. -/
inductive Escaped : List UInt8 → List UInt8 → Prop
  | nil : Escaped [] []
  | plain {data body : List UInt8} (b : UInt8) (unquoted : b ≠ quote) (unescaped : b ≠ backslash)
      (h : Escaped data body) : Escaped (b :: data) (b :: body)
  | escape {data body : List UInt8} (b : UInt8) (h : Escaped data body) :
      Escaped (b :: data) (backslash :: b :: body)

mutual

/-- A way to write one token. -/
inductive Spells : Token → List UInt8 → Prop
  | atom {name : List UInt8} (some : name ≠ []) (all : ∀ b ∈ name, isAtomByte b = true) :
      Spells (.atom (Utf8.decode name)) name
  | quoted {data body : List UInt8} (h : Escaped data body) :
      Spells (.text (Utf8.decode data)) (quote :: (body ++ [quote]))
  | literal {digits data : List UInt8} (some : digits ≠ [])
      (all : ∀ b ∈ digits, Ascii.isDigit b = true) (counted : Ascii.decimal digits = data.length) :
      Spells (.text (Utf8.decode data)) (openCount :: (digits ++ closeCount :: cr :: lf :: data))
  | list {ts : List Token} {inside : List UInt8} (row : Row ts inside) :
      Spells (.list ts) (openList :: (inside ++ [closeList]))

inductive Row : List Token → List UInt8 → Prop
  | nil : Row [] []
  | cons {t : Token} {ts : List Token} {front others : List UInt8} (first : Spells t front)
      (more : Others ts others) : Row (t :: ts) (front ++ others)

/-- A way to write the tokens after a first one, with a gap before each. -/
inductive Others : List Token → List UInt8 → Prop
  | nil : Others [] []
  | cons {t : Token} {ts : List Token} {gap front others : List UInt8} (some : gap ≠ [])
      (all : ∀ b ∈ gap, isGap b = true) (first : Spells t front) (more : Others ts others) :
      Others (t :: ts) (gap ++ (front ++ others))

end

theorem quotedOnto_escaped {data body : List UInt8} (h : Escaped data body)
    (done r : List UInt8) :
    quotedOnto done (body ++ quote :: r) = some (done.reverse ++ data, r) := by
  induction h generalizing done with
  | nil =>
    rw [List.nil_append, quotedOnto.eq_def]
    simp
  | plain b unquoted unescaped h ih =>
    rw [List.cons_append, quotedOnto.eq_def]
    simp only [if_neg unquoted, if_neg unescaped]
    rw [ih]
    simp
  | escape b h ih =>
    have notQuote : backslash ≠ quote := by decide
    rw [List.cons_append, List.cons_append, quotedOnto.eq_def]
    simp only [if_neg notQuote, if_true]
    rw [ih]
    simp

@[simp] theorem cutOnto_length (data done r : List UInt8) :
    cutOnto done data.length (data ++ r) = some (done.reverse ++ data, r) := by
  induction data generalizing done with
  | nil => simp [cutOnto]
  | cons b data ih =>
    rw [List.length_cons, List.cons_append, cutOnto, ih]
    simp

theorem literal_counted {digits data : List UInt8} (r : List UInt8) (some : digits ≠ [])
    (all : ∀ b ∈ digits, Ascii.isDigit b = true)
    (counted : Ascii.decimal digits = data.length) :
    literal (digits ++ closeCount :: cr :: lf :: (data ++ r)) = .some (data, r) := by
  have ends : Splitting.Ends Ascii.isDigit (closeCount :: cr :: lf :: (data ++ r)) := by
    simp [Ascii.isDigit, closeCount]
  have run := Splitting.takeWhile_run all ends
  simp only [literal, run, List.drop_left, counted, and_true, if_pos some]
  rw [cutOnto_length]
  rfl

/-- What an atom is made of cannot begin any other token. -/
theorem isAtomByte_cases {b : UInt8} (h : isAtomByte b = true) :
    b ≠ openList ∧ b ≠ openCount ∧ b ≠ quote ∧ isGap b = false := by
  simp only [isAtomByte, Bool.and_eq_true, bne_iff_ne, decide_eq_true_eq] at h
  obtain ⟨⟨⟨⟨⟨low, -⟩, notOpen⟩, -⟩, notCount⟩, notQuote⟩ := h
  refine ⟨notOpen, notCount, notQuote, ?_⟩
  have : b ≠ 0x20 := by
    rintro rfl
    simp at low
  have : b ≠ 0x09 := by
    rintro rfl
    simp at low
  simp [isGap, *]

theorem gap_not_atom {b : UInt8} (h : isGap b = true) : isAtomByte b = false := by
  cases ha : isAtomByte b with
  | false => rfl
  | true => simp [(isAtomByte_cases ha).2.2.2] at h

/-- A token does not begin with a gap. -/
theorem Spells.ends_gap {t : Token} {front : List UInt8} (h : Spells t front) (r : List UInt8) :
    Splitting.Ends isGap (front ++ r) := by
  cases h with
  | atom some all =>
    cases front with
    | nil => exact absurd rfl some
    | cons b name => simpa using (isAtomByte_cases (all b (by simp))).2.2.2
  | quoted => simp [isGap, quote]
  | literal => simp [isGap, openCount]
  | list => simp [isGap, openList]

/-- What follows a token, if anything does, does not go on with it. -/
theorem Others.ends_some {ts : List Token} {others : List UInt8} (h : Others ts others)
    (some : others ≠ []) (r : List UInt8) : Splitting.Ends isAtomByte (others ++ r) := by
  cases h with
  | nil => exact absurd rfl some
  | @cons _ _ gap _ _ gapped all _ _ =>
    cases gap with
    | nil => exact absurd rfl gapped
    | cons b gap => simpa using gap_not_atom (all b (by simp))

theorem Others.ends_atom {ts : List Token} {others r : List UInt8} (h : Others ts others)
    (ends : Splitting.Ends isAtomByte r) : Splitting.Ends isAtomByte (others ++ r) := by
  by_cases some : others = []
  · rw [some]
    exact ends
  · exact h.ends_some some r

variable {n : Nat} {t : Token} {ts : List Token} {front gap others r : List UInt8}

theorem first_atom {name : List UInt8} (some : name ≠ [])
    (all : ∀ b ∈ name, isAtomByte b = true) (ends : Splitting.Ends isAtomByte r) :
    first (n + 1) (name ++ r) = .some (.atom (Utf8.decode name), r) := by
  cases name with
  | nil => exact absurd rfl some
  | cons b name =>
    have atom := all b (by simp)
    obtain ⟨notList, notCount, notQuote, -⟩ := isAtomByte_cases atom
    rw [List.cons_append, first, if_neg notList, if_neg notCount, if_neg notQuote, if_pos atom,
      ← List.cons_append, atomOf, Splitting.takeWhile_run all ends,
      Splitting.dropWhile_run all ends]

theorem first_quoted {data body : List UInt8} (h : Escaped data body) :
    first (n + 1) (quote :: (body ++ quote :: r)) = some (.text (Utf8.decode data), r) := by
  rw [first, if_neg (by decide), if_neg (by decide), if_pos rfl, quotedOnto_escaped h]
  rfl

theorem first_literal {digits data : List UInt8} (some : digits ≠ [])
    (all : ∀ b ∈ digits, Ascii.isDigit b = true)
    (counted : Ascii.decimal digits = data.length) :
    first (n + 1) (openCount :: (digits ++ closeCount :: cr :: lf :: (data ++ r))) =
      .some (.text (Utf8.decode data), r) := by
  rw [first, if_neg (by decide), if_pos rfl, literal_counted r some all counted]
  rfl

/-- No token begins with the end of a list. -/
@[simp] theorem first_close : first n (closeList :: r) = none := by
  cases n <;> rfl

@[simp] theorem first_empty : first (n + 1) (openList :: closeList :: r) = some (.list [], r) := by
  simp [first]

theorem first_list (one : first n (front ++ (others ++ closeList :: r)) =
      some (t, others ++ closeList :: r))
    (rest : more n (others ++ closeList :: r) = (ts, closeList :: r)) :
    first (n + 1) (openList :: (front ++ (others ++ closeList :: r))) =
      some (.list (t :: ts), r) := by
  rw [first, if_pos rfl, one]
  dsimp only
  rw [rest]
  rfl

/-- Where there is no gap, nothing follows. -/
theorem more_nil (gapless : Splitting.Ends isGap r) : more n r = ([], r) := by
  cases n with
  | zero => rfl
  | succ n =>
    have none : r.takeWhile isGap = [] := by
      have nothing : ∀ b ∈ ([] : List UInt8), isGap b = true := by simp
      simpa using Splitting.takeWhile_run nothing gapless
    rw [more, none, List.isEmpty_nil, if_pos rfl]

theorem more_cons (some : gap ≠ []) (all : ∀ b ∈ gap, isGap b = true)
    (start : Splitting.Ends isGap (front ++ (others ++ r)))
    (one : first n (front ++ (others ++ r)) = .some (t, others ++ r))
    (rest : more n (others ++ r) = (ts, r)) :
    more (n + 1) (gap ++ (front ++ (others ++ r))) = (t :: ts, r) := by
  have taken : gap.isEmpty = false := by simpa using some
  rw [more, Splitting.takeWhile_run all start, taken, Splitting.dropWhile_run all start, one]
  dsimp only
  rw [rest]
  rfl

/-- A row between parentheses is a list, whatever comes behind it, where its tokens are read
one depth further down. -/
theorem first_row {inside : List UInt8}
    (readsFirst : ∀ t front r, Spells t front → front.length < n → Splitting.Ends isAtomByte r →
      first n (front ++ r) = some (t, r))
    (readsMore : ∀ ts others r, Others ts others → others.length < n →
      Splitting.Ends isAtomByte r → Splitting.Ends isGap r → more n (others ++ r) = (ts, r))
    (row : Row ts inside) (fits : inside.length < n) :
    first (n + 1) (openList :: (inside ++ closeList :: r)) = some (.list ts, r) := by
  cases row with
  | nil => exact first_empty
  | @cons t ts front others one rest =>
    have short : front.length < n ∧ others.length < n := by
      simp only [List.length_append] at fits
      omega
    have close : Splitting.Ends isAtomByte (closeList :: r) := by simp [isAtomByte, closeList]
    have close' : Splitting.Ends isGap (closeList :: r) := by simp [isGap, closeList]
    have one' := readsFirst t front _ one short.1 (rest.ends_atom close)
    have rest' := readsMore ts others _ rest short.2 close close'
    simpa using first_list one' rest'

/-- A token and what follows one are read as they are written. The two readings go hand in hand,
so the induction is on the depth that both are given. -/
theorem reads (n : Nat) :
    (∀ t front r, Spells t front → front.length < n → Splitting.Ends isAtomByte r →
      first n (front ++ r) = some (t, r)) ∧
    (∀ ts others r, Others ts others → others.length < n → Splitting.Ends isAtomByte r →
      Splitting.Ends isGap r → more n (others ++ r) = (ts, r)) := by
  induction n with
  | zero => exact ⟨fun _ _ _ _ h => absurd h (by omega), fun _ _ _ _ h => absurd h (by omega)⟩
  | succ n ih =>
    obtain ⟨readsFirst, readsMore⟩ := ih
    constructor
    · intro t front r h fits ends
      cases h with
      | atom some all => exact first_atom some all ends
      | quoted h => simpa using first_quoted h
      | literal some all counted => simpa using first_literal some all counted
      | @list ts inside row =>
        have short : inside.length < n := by
          simp only [List.length_cons, List.length_append, List.length_nil] at fits
          omega
        simpa using first_row readsFirst readsMore row short
    · intro ts others r h fits ends gapless
      cases h with
      | nil => exact more_nil gapless
      | @cons t ts gap front others some all one rest =>
        have short : front.length < n ∧ others.length < n := by
          have := List.length_pos_iff.2 some
          simp only [List.length_append] at fits
          omega
        have one' := readsFirst t front _ one short.1 (rest.ends_atom ends)
        have rest' := readsMore ts others r rest short.2 ends gapless
        simpa using more_cons some all (one.ends_gap (others ++ r)) one' rest'

/-- A row is read to its end. -/
theorem several_row {ts : List Token} {bytes : List UInt8} (h : Row ts bytes) :
    several bytes = (ts, []) := by
  cases h with
  | nil => rfl
  | @cons t ts front others one rest =>
    have depth : (front ++ others).length = front.length + others.length := List.length_append
    have first := (reads ((front ++ others).length + 1)).1 t front others one (by omega)
      (by simpa using rest.ends_atom (Splitting.ends_nil _))
    have others' := (reads ((front ++ others).length + 1)).2 ts others [] rest (by omega)
      (Splitting.ends_nil _) (Splitting.ends_nil _)
    rw [List.append_nil] at others'
    simp only [several, first, others']

theorem ofBytes_row {ts : List Token} {bytes : List UInt8} (h : Row ts bytes) :
    ofBytes bytes = ts := by
  have nothing : Blank.trim (Utf8.decode []) = "" := by decide
  simp only [ofBytes, several_row h, nothing, if_true]

/-- A row makes a condition only if it begins with an atom that is a status word. -/
theorem conditionOf_row {bytes : List UInt8} (h : Row ts bytes)
    (plain : ∀ word, ts.head? = some (.atom word) → Status.ofName? word = none) :
    Line.conditionOf? bytes = none := by
  have unnamed : Status.ofName? (Utf8.decode []) = none := by decide
  cases h with
  | nil => rw [Line.conditionOf?, List.takeWhile_nil, unnamed]
  | @cons t ts front others first more =>
    cases first with
    | quoted h => simp [Line.conditionOf?, Ascii.isLetter, quote, unnamed]
    | literal some all counted => simp [Line.conditionOf?, Ascii.isLetter, openCount, unnamed]
    | list row => simp [Line.conditionOf?, Ascii.isLetter, openList, unnamed]
    | atom some all =>
      by_cases letters : ∀ b ∈ front, Ascii.isLetter b = true
      · have ends : Splitting.Ends Ascii.isLetter others := by
          cases more with
          | nil => exact Splitting.ends_nil _
          | @cons _ _ gap _ _ some all _ _ =>
            cases gap with
            | nil => exact absurd rfl some
            | cons b gap => simpa using Line.gap_not_letter (all b (by simp))
        rw [Line.conditionOf?, Splitting.takeWhile_run letters ends, plain _ rfl]
      · obtain ⟨b, rest, hrest⟩ : ∃ b rest, front.dropWhile Ascii.isLetter = b :: rest := by
          cases hd : front.dropWhile Ascii.isLetter with
          | nil => exact absurd (List.dropWhile_eq_nil_iff.1 hd) letters
          | cons b rest => exact ⟨b, rest, rfl⟩
        have dropped : (front ++ others).dropWhile Ascii.isLetter = b :: (rest ++ others) := by
          rw [List.dropWhile_append, hrest]
          rfl
        have gapless : isGap b = false := by
          have hb : b ∈ front := (List.dropWhile_sublist Ascii.isLetter).subset (by simp [hrest])
          exact (isAtomByte_cases (all b hb)).2.2.2
        rw [Line.conditionOf?, dropped]
        split
        · rfl
        · simp [gapless]

end ImapSession.Token
