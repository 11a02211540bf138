import ImapSession.Proofs.Covering

/-!
Places for a token on a line: behind any tokens and a gap, inside any number of lists. A token
that is written at such a place is read there exactly if these lists are closed behind it, and
then what the tokens leave of the line stands behind it too. Where a list is not closed, or
nothing that could be a token begins, reading ends, and all of the line from there on is left.
-/
namespace ImapSession.Token

variable {n depth : Nat} {t u : Token} {ts us items : List Token}
variable {front before gap one others after back rest r x : List UInt8}

/-- One of some tokens, or one in a list that is among them. -/
inductive Among (t : Token) : List Token → Prop
  | here (ts : List Token) : Among t (t :: ts)
  | later (u : Token) {ts : List Token} (h : Among t ts) : Among t (u :: ts)
  | inside {items : List Token} (ts : List Token) (h : Among t items) : Among t (.list items :: ts)

theorem among_middle (t : Token) (ts us : List Token) : Among t (ts ++ t :: us) := by
  induction ts with
  | nil => exact .here us
  | cons u ts ih => exact .later u ih

theorem Among.of_list (h : Among (.list items) ts) (inner : Among t items) : Among t ts := by
  induction h with
  | here ts => exact .inside ts inner
  | later u h ih => exact .later u ih
  | inside ts h ih => exact .inside ts ih

/-- A place for a token inside so many lists, given by what stands in front of it: the tokens of
a row and a gap, on the line and in each of the lists. -/
inductive Place : Nat → List UInt8 → Prop
  | line {ts : List Token} {before gap : List UInt8} (row : Row ts before)
      (apart : gap = [] ↔ ts = []) (all : ∀ b ∈ gap, isGap b = true) : Place 0 (before ++ gap)
  | list {depth : Nat} {ts : List Token} {front before gap : List UInt8}
      (outer : Place depth front) (row : Row ts before) (apart : gap = [] ↔ ts = [])
      (all : ∀ b ∈ gap, isGap b = true) : Place (depth + 1) (front ++ openList :: (before ++ gap))

/-- So many lists are closed, each behind further tokens. Behind the last of them may stand
anything. -/
inductive Closes : Nat → List UInt8 → Prop
  | line (rest : List UInt8) : Closes 0 rest
  | list {depth : Nat} {us : List Token} {after rest : List UInt8} (more : Others us after)
      (outer : Closes depth rest) : Closes (depth + 1) (after ++ closeList :: rest)

/-- The first of some tokens is as far done as they are. -/
theorem Done.head (done : Done (t :: ts) r) (rest : Others ts others) :
    Done [t] (others ++ r) := by
  intro name atom
  cases ts with
  | nil =>
    cases rest
    exact done name atom
  | cons u us => exact rest.ends_some (by cases rest; simp_all) r

theorem Done.tail (done : Done (t :: ts) r) : Done ts r := by
  cases ts with
  | nil => exact done_nil r
  | cons u us => exact fun name atom => done name (by simpa using atom)

theorem Done.concat (done : Done [t] r) (ts : List Token) : Done (ts ++ [t]) r :=
  fun name atom => done name (by simpa using atom)

/-- Tokens behind a first one are read where they are written, and reading goes on behind them. -/
theorem more_front (h : Others ts others) (deep : others.length < n) (done : Done ts r) :
    ∃ m us s, more m r = (us, s) ∧ more n (others ++ r) = (ts ++ us, s) := by
  induction n generalizing ts others with
  | zero => omega
  | succ n ih =>
    cases h with
    | nil => exact ⟨n + 1, _, _, rfl, rfl⟩
    | @cons t ts gap front others some all one rest =>
      have short : front.length < n ∧ others.length < n := by
        have := List.length_pos_iff.2 some
        simp only [List.length_append] at deep
        omega
      have start := one.ends_gap (others ++ r)
      have taken : gap.isEmpty = false := by simpa using some
      have read := first_done one short.1 (done.head rest)
      obtain ⟨m, us, s, behind, others'⟩ := ih rest short.2 done.tail
      have whole : gap ++ (front ++ others) ++ r = gap ++ (front ++ (others ++ r)) := by simp
      refine ⟨m, us, s, behind, ?_⟩
      rw [whole, more, Splitting.takeWhile_run all start, taken, Splitting.dropWhile_run all start,
        read]
      simp only [Bool.false_eq_true, if_false, others', List.cons_append]

/-- A row is read from its first token on, and reading goes on behind it. -/
theorem row_front (h : Row (t :: ts) front) (deep : front.length < n) (done : Done (t :: ts) r) :
    ∃ m us s x, more m r = (us, x) ∧ first n (front ++ r) = some (t, s) ∧
      more n s = (ts ++ us, x) := by
  cases h with
  | @cons t ts front others one rest =>
    have short : front.length < n ∧ others.length < n := by
      simp only [List.length_append] at deep
      omega
    obtain ⟨m, us, x, behind, others'⟩ := more_front rest short.2 done.tail
    refine ⟨m, us, others ++ r, x, behind, ?_, others'⟩
    rw [List.append_assoc]
    exact first_done one short.1 (done.head rest)

/-- A row at the front of a line is read as its tokens, with others behind them. -/
theorem several_front (h : Row ts front) (done : Done ts r) :
    ∃ us, (several (front ++ r)).1 = ts ++ us := by
  cases ts with
  | nil => exact ⟨_, rfl⟩
  | cons t ts =>
    have deep : front.length < (front ++ r).length + 1 := by
      simp only [List.length_append]
      omega
    obtain ⟨m, us, s, x, -, one, others⟩ := row_front h deep done
    exact ⟨us, by simp only [several, one, others, List.cons_append]⟩

theorem Others.append (h : Others ts others) (more : Others us after) :
    Others (ts ++ us) (others ++ after) := by
  induction ts generalizing others with
  | nil =>
    cases h
    exact more
  | cons t ts ih =>
    cases h with
    | cons some all first rest => simpa using Others.cons some all first (ih rest)

/-- A row in which one more token stands between others. -/
theorem Row.insert (row : Row ts before) (apart : gap = [] ↔ ts = [])
    (all : ∀ b ∈ gap, isGap b = true) (next : Spells t one) (more : Others us after) :
    Row (ts ++ t :: us) (before ++ (gap ++ (one ++ after))) := by
  have front := row.concat apart all next
  generalize hrow : ts ++ [t] = row' at front
  generalize hfront : before ++ (gap ++ one) = front' at front
  cases front with
  | nil => simp at hrow
  | @cons t' ts' first others spelt rest =>
    have longer := Row.cons spelt (rest.append more)
    rw [← List.cons_append, ← hrow, ← List.append_assoc, ← hfront] at longer
    simpa using longer

/-- A token that is written at a place in lists that are closed is read there, and all that is
left is behind it. -/
theorem several_place (place : Place depth front) (closes : Closes depth back)
    (spelt : Spells t one) (done : Done [t] back) :
    Among t (several (front ++ (one ++ back))).1 ∧ (several (front ++ (one ++ back))).2 <:+ back := by
  induction place generalizing t one back with
  | @line ts before gap row apart all =>
    have whole : before ++ gap ++ (one ++ back) = before ++ (gap ++ one) ++ back := by simp
    have longer := row.concat apart all spelt
    obtain ⟨us, read⟩ := several_front longer (done.concat ts)
    rw [whole, read]
    refine ⟨?_, several_any longer back⟩
    simpa using among_middle t ts us
  | @list depth ts front before gap outer row apart all ih =>
    cases closes with
    | @list _ us after rest more closes =>
      have inside := row.insert apart all spelt more
      obtain ⟨among, left⟩ := ih closes (.list inside) (done_list _ rest)
      have whole : front ++ openList :: (before ++ gap) ++ (one ++ (after ++ closeList :: rest)) =
          front ++ (openList :: (before ++ (gap ++ (one ++ after)) ++ [closeList]) ++ rest) := by
        simp
      rw [whole]
      exact ⟨among.of_list (among_middle t ts us),
        left.trans ((List.suffix_cons _ _).trans (List.suffix_append _ _))⟩

/-- No token begins here, nor does a list end or a gap go on. -/
structure Barred (x : List UInt8) : Prop where
  gapless : Splitting.Ends isGap x
  endless : x.head? ≠ some closeList
  tokenless : ∀ n, first n x = none

/-- What cannot be read in any depth that is enough cannot be read in a smaller one. -/
theorem tokenless_of_deep (h : ∀ n, x.length < n → first n x = none) (n : Nat) :
    first n x = none := by
  cases made : first n x with
  | none => rfl
  | some found =>
    obtain ⟨t, r⟩ := found
    obtain ⟨front, rfl, spells, -⟩ := (spelt n).1 _ _ _ made
    have deep : front.length < (front ++ r).length + 1 := by
      simp only [List.length_append]
      omega
    obtain ⟨one, s, again, -⟩ := first_any spells deep r
    rw [h _ (Nat.lt_succ_self _)] at again
    cases again

/-- A parenthesis that opens no list begins no token. -/
theorem barred_open (h : ∀ n, x.length < n → first (n + 1) (openList :: x) = none) :
    Barred (openList :: x) := by
  refine ⟨by simp [isGap, openList], by simp [openList, closeList], tokenless_of_deep ?_⟩
  intro n deep
  cases n with
  | zero => rfl
  | succ n => exact h n (by simpa using deep)

/-- A gap with nothing to read behind it is left. -/
theorem more_barred (barred : Barred x) (all : ∀ b ∈ gap, isGap b = true) (n : Nat) :
    more n (gap ++ x) = ([], gap ++ x) := by
  cases n with
  | zero => rfl
  | succ n =>
    rw [more, Splitting.takeWhile_run all barred.gapless, Splitting.dropWhile_run all barred.gapless,
      barred.tokenless]
    simp

/-- The tokens of a row are all that is read in front of it, and there may be none. -/
theorem row_barred (row : Row ts before) (apart : gap = [] ↔ ts = [])
    (all : ∀ b ∈ gap, isGap b = true) (barred : Barred x) (deep : before.length < n) :
    (before ++ (gap ++ x) = x ∧ first n x = none) ∨
    ∃ t us s, first n (before ++ (gap ++ x)) = some (t, s) ∧ more n s = (us, gap ++ x) ∧ gap ≠ [] := by
  cases ts with
  | nil =>
    cases row
    obtain rfl : gap = [] := apart.2 rfl
    exact .inl ⟨rfl, barred.tokenless n⟩
  | cons t ts =>
    have some : gap ≠ [] := fun none => nomatch apart.1 none
    have done : Done (t :: ts) (gap ++ x) := fun _ _ =>
      Splitting.ends_append some (fun b hb => gap_not_atom (all b hb)) x
    obtain ⟨m, us, s, left, behind, one, others⟩ := row_front row deep done
    rw [more_barred barred all] at behind
    obtain ⟨rfl, rfl⟩ := Prod.mk.inj behind
    exact .inr ⟨t, _, s, one, others, some⟩

/-- What is left of a line is at least all from there on. -/
theorem several_barred (row : Row ts before) (apart : gap = [] ↔ ts = [])
    (all : ∀ b ∈ gap, isGap b = true) (barred : Barred x) :
    x <:+ (several (before ++ (gap ++ x))).2 := by
  have deep : before.length < (before ++ (gap ++ x)).length + 1 := by
    simp only [List.length_append]
    omega
  rcases row_barred row apart all barred deep with ⟨same, -⟩ | ⟨t, us, s, one, more, -⟩
  · simp only [same, several, barred.tokenless, List.suffix_refl]
  · simp only [several, one, more]
    exact List.suffix_append gap x

/-- No list begins where one of its members would have to begin there. -/
theorem list_barred (row : Row ts before) (apart : gap = [] ↔ ts = [])
    (all : ∀ b ∈ gap, isGap b = true) (barred : Barred x) :
    Barred (openList :: (before ++ (gap ++ x))) := by
  refine barred_open fun n deep => ?_
  have short : before.length < n := by
    simp only [List.length_append] at deep
    omega
  rw [first, if_pos rfl]
  rcases row_barred row apart all barred short with ⟨same, none⟩ | ⟨t, us, s, one, more, some⟩
  · rw [same, none]
    cases x with
    | nil => rfl
    | cons c x =>
      have other : c ≠ closeList := by simpa using barred.endless
      simp only [if_neg other]
  · simp only [one, more]
    cases gap with
    | nil => exact absurd rfl some
    | cons c gap =>
      have other : c ≠ closeList := by
        rintro rfl
        exact absurd (all closeList (by simp)) (by decide)
      simp only [List.cons_append, if_neg other]

/-- What is left from a list on is left from wherever in it on. -/
theorem left_inside (left : openList :: (before ++ (gap ++ x)) <:+
    (several (front ++ openList :: (before ++ (gap ++ x)))).2) :
    x <:+ (several (front ++ openList :: (before ++ gap) ++ x)).2 := by
  have whole : front ++ openList :: (before ++ gap) ++ x =
      front ++ openList :: (before ++ (gap ++ x)) := by simp
  rw [whole]
  exact List.IsSuffix.trans ⟨openList :: (before ++ gap), by simp⟩ left

/-- Where no token begins at a place, all of the line from there on is left. -/
theorem Place.barred (place : Place depth front) (barred : Barred x) :
    x <:+ (several (front ++ x)).2 := by
  induction place generalizing x with
  | line row apart all =>
    rw [List.append_assoc]
    exact several_barred row apart all barred
  | list outer row apart all ih => exact left_inside (ih (list_barred row apart all barred))

/-- A list that is not closed behind a token is no token. -/
theorem unclosed_barred (row : Row ts before) (done : Done ts back) (some : ts ≠ [])
    (unclosed : ∀ us after rest, Others us after → back ≠ after ++ closeList :: rest) :
    Barred (openList :: (before ++ back)) := by
  obtain ⟨t, ts, rfl⟩ := List.exists_cons_of_ne_nil some
  refine barred_open fun n deep => ?_
  have short : before.length < n := by
    simp only [List.length_append] at deep
    omega
  obtain ⟨m, us, s, x, behind, one, others⟩ := row_front row short done
  cases made : first (n + 1) (openList :: (before ++ back)) with
  | none => rfl
  | some found =>
    obtain ⟨t', r⟩ := found
    rcases list_of_first made with ⟨closed, -⟩ | ⟨one', s', ts', one', others', -⟩
    · rw [closed, first_close] at one
      cases one
    · rw [one] at one'
      obtain ⟨rfl, rfl⟩ := Prod.mk.inj (Option.some.inj one')
      rw [others] at others'
      obtain ⟨-, rfl⟩ := Prod.mk.inj others'
      obtain ⟨after, parted, more, -⟩ := (spelt m).2 _ _ _ behind
      exact absurd parted (unclosed us after r more)

/-- Where some list around a token is not closed, all of the line from there on is left. -/
theorem Place.unclosed (place : Place depth front) (spelt : Spells t one) (done : Done [t] back)
    (unclosed : ¬ Closes depth back) : one ++ back <:+ (several (front ++ (one ++ back))).2 := by
  induction place generalizing t one back with
  | line => exact absurd (.line back) unclosed
  | @list depth ts front before gap outer row apart all ih =>
    by_cases closed : ∃ us after rest, Others us after ∧ back = after ++ closeList :: rest
    · obtain ⟨us, after, rest, more, rfl⟩ := closed
      have inside := row.insert apart all spelt more
      have left := ih (.list inside) (done_list _ rest) fun closes => unclosed (.list more closes)
      exact left_inside (by simpa using left)
    · have barred := unclosed_barred (row.concat apart all spelt) (done.concat ts) (by simp)
        fun us after rest more same => closed ⟨us, after, rest, more, same⟩
      have left := outer.barred barred
      exact left_inside (by simpa using left)

end ImapSession.Token
