import ImapSession.Proofs.Spelling

/-!
What the tokens of a line cover. Reading goes through the longest beginning of the bytes that
is a row of tokens, and gives the tokens of this row; no atom in it could have been longer, and
behind it stands nothing that could have been one more token. What is left is kept as text, so
that nothing of the line is lost. All this is said without the depth that the reading is given,
which therefore never is too small.
-/
namespace ImapSession.Token

variable {n : Nat} {t : Token} {ts : List Token} {bytes data done r : List UInt8}

/-- What is read between quotes was written there, with or without escapes. -/
theorem escaped_of_quotedOnto (h : quotedOnto done bytes = some (data, r)) :
    ∃ inside body, data = done.reverse ++ inside ∧ bytes = body ++ quote :: r ∧
      Escaped inside body := by
  fun_induction quotedOnto done bytes with
  | case1 => cases h
  | case2 done r' =>
    cases h
    exact ⟨[], [], by simp, rfl, .nil⟩
  | case3 => cases h
  | case4 done c s notQuote ih =>
    obtain ⟨inside, body, rfl, rfl, escaped⟩ := ih h
    exact ⟨c :: inside, backslash :: c :: body, by simp, rfl, .escape c escaped⟩
  | case5 done b r' unquoted unescaped ih =>
    obtain ⟨inside, body, rfl, rfl, escaped⟩ := ih h
    exact ⟨b :: inside, b :: body, by simp, rfl, .plain b unquoted unescaped escaped⟩

/-- Bytes that are cut off are as many as were asked for. -/
theorem taken_of_cutOnto (h : cutOnto done n bytes = some (data, r)) :
    ∃ taken, data = done.reverse ++ taken ∧ taken.length = n ∧ bytes = taken ++ r := by
  fun_induction cutOnto done n bytes with
  | case1 done r' =>
    cases h
    exact ⟨[], by simp, rfl, rfl⟩
  | case2 => cases h
  | case3 done n b r' ih =>
    obtain ⟨taken, rfl, rfl, rfl⟩ := ih h
    exact ⟨b :: taken, by simp, rfl, rfl⟩

/-- A literal that is read was announced with the count of its bytes. -/
theorem counted_of_literal (h : literal bytes = some (data, r)) :
    ∃ digits, digits ≠ [] ∧ (∀ b ∈ digits, Ascii.isDigit b = true) ∧
      Ascii.decimal digits = data.length ∧
      bytes = digits ++ closeCount :: cr :: lf :: (data ++ r) := by
  have whole := List.takeWhile_append_dropWhile (p := Ascii.isDigit) (l := bytes)
  have behind : bytes.drop (bytes.takeWhile Ascii.isDigit).length =
      bytes.dropWhile Ascii.isDigit := by
    calc bytes.drop (bytes.takeWhile Ascii.isDigit).length
        = (bytes.takeWhile Ascii.isDigit ++ bytes.dropWhile Ascii.isDigit).drop
            (bytes.takeWhile Ascii.isDigit).length := by rw [whole]
      _ = bytes.dropWhile Ascii.isDigit := List.drop_left
  unfold literal at h
  dsimp only at h
  rw [behind] at h
  split at h
  · rename_i a b c s cut
    split at h
    · rename_i announced
      obtain ⟨some, rfl, rfl, rfl⟩ := announced
      obtain ⟨taken, rfl, count, rfl⟩ := taken_of_cutOnto h
      refine ⟨bytes.takeWhile Ascii.isDigit, some, fun b hb => List.mem_takeWhile_imp hb, ?_, ?_⟩
      · simp [count]
      · exact whole.symm.trans (congrArg _ cut)
    · cases h
  · cases h

/-- A list is empty, or it is read token by token up to where it is closed. -/
theorem list_of_first (h : first (n + 1) (openList :: bytes) = some (t, r)) :
    (bytes = closeList :: r ∧ t = .list []) ∨
    ∃ one s ts, first n bytes = some (one, s) ∧ more n s = (ts, closeList :: r) ∧
      t = .list (one :: ts) := by
  rw [first, if_pos rfl] at h
  dsimp only at h
  cases made : first n bytes with
  | none =>
    rw [made] at h
    dsimp only at h
    split at h
    · rename_i closed
      obtain ⟨rfl, rfl⟩ := Prod.mk.inj closed
      split at h
      · rename_i close
        obtain ⟨rfl, rfl⟩ := Prod.mk.inj (Option.some.inj h)
        exact .inl ⟨by rw [close], rfl⟩
      · cases h
    · cases h
  | some found =>
    obtain ⟨one, s⟩ := found
    rw [made] at h
    dsimp only at h
    split at h
    · rename_i closed
      obtain ⟨rfl, rest⟩ := Prod.mk.inj closed
      split at h
      · rename_i close
        obtain ⟨rfl, rfl⟩ := Prod.mk.inj (Option.some.inj h)
        exact .inr ⟨one, s, _, rfl, Prod.ext rfl (by rw [rest, close]), rfl⟩
      · cases h
    · cases h

/-- What follows is nothing, or a token behind a gap and what follows that. -/
theorem more_made (h : more n bytes = (ts, r)) : (ts = [] ∧ r = bytes) ∨
    ∃ m one s others, m < n ∧ bytes.takeWhile isGap ≠ [] ∧
      first m (bytes.dropWhile isGap) = some (one, s) ∧ more m s = (others, r) ∧
      ts = one :: others := by
  cases n with
  | zero =>
    obtain ⟨rfl, rfl⟩ := Prod.mk.inj h
    exact .inl ⟨rfl, rfl⟩
  | succ n =>
    rw [more] at h
    split at h
    · obtain ⟨rfl, rfl⟩ := Prod.mk.inj h
      exact .inl ⟨rfl, rfl⟩
    · rename_i gap
      cases made : first n (bytes.dropWhile isGap) with
      | none =>
        rw [made] at h
        obtain ⟨rfl, rfl⟩ := Prod.mk.inj h
        exact .inl ⟨rfl, rfl⟩
      | some found =>
        obtain ⟨one, s⟩ := found
        rw [made] at h
        obtain ⟨rfl, rfl⟩ := Prod.mk.inj h
        exact .inr ⟨n, one, s, _, n.lt_succ_self, by simpa using gap, made, rfl, rfl⟩

/-- No atom at the end of these tokens goes on in what follows them. -/
def Done (ts : List Token) (rest : List UInt8) : Prop :=
  ∀ name, ts.getLast? = some (.atom name) → Splitting.Ends isAtomByte rest

@[simp] theorem done_nil (rest : List UInt8) : Done [] rest := by simp [Done]
@[simp] theorem done_text (value : String) (rest : List UInt8) : Done [.text value] rest := by
  simp [Done]
@[simp] theorem done_list (items : List Token) (rest : List UInt8) : Done [.list items] rest := by
  simp [Done]

/-- With what follows it a token is as far done as the last of them. -/
theorem Done.cons {others : List UInt8} (one : Done [t] (others ++ r)) (row : Others ts others)
    (more : Done ts r) : Done (t :: ts) r := by
  intro name atom
  cases ts with
  | nil =>
    cases row
    exact one name atom
  | cons t' ts => exact more name (by simpa using atom)

/-- An atom is a run of its bytes up to where it ends. -/
theorem atom_spelt {b : UInt8} (atom : isAtomByte b = true) (bytes : List UInt8) :
    Spells (.atom (Utf8.decode ((b :: bytes).takeWhile isAtomByte)))
      ((b :: bytes).takeWhile isAtomByte) := by
  refine .atom ?_ fun x hx => List.mem_takeWhile_imp hx
  rw [List.takeWhile_cons_of_pos atom]
  exact List.cons_ne_nil _ _

/-- What opens no list is read in one go, and was written there. -/
theorem flat_spelt {b : UInt8} (flat : b ≠ openList) (h : first (n + 1) (b :: bytes) = some (t, r)) :
    ∃ front, b :: bytes = front ++ r ∧ Spells t front ∧ Done [t] r := by
  rw [first, if_neg flat] at h
  split at h
  · rename_i counted
    obtain ⟨⟨data, s⟩, read, same⟩ := Option.map_eq_some_iff.1 h
    obtain ⟨rfl, rfl⟩ := Prod.mk.inj same
    obtain ⟨digits, some, all, count, rfl⟩ := counted_of_literal read
    exact ⟨openCount :: (digits ++ closeCount :: cr :: lf :: data), by simp [counted],
      .literal some all count, done_text _ _⟩
  split at h
  · rename_i quoted
    obtain ⟨⟨data, s⟩, read, same⟩ := Option.map_eq_some_iff.1 h
    obtain ⟨rfl, rfl⟩ := Prod.mk.inj same
    obtain ⟨inside, body, rfl, rfl, escaped⟩ := escaped_of_quotedOnto read
    exact ⟨quote :: (body ++ [quote]), by simp [quoted], .quoted escaped, done_text _ _⟩
  split at h
  · rename_i atom
    obtain ⟨rfl, rfl⟩ := Prod.mk.inj (Option.some.inj h)
    exact ⟨_, List.takeWhile_append_dropWhile.symm, atom_spelt atom bytes,
      fun _ _ => Splitting.ends_dropWhile isAtomByte _⟩
  · cases h

/-- What is read is written there. The reading of a token and the reading of what follows one
go hand in hand, so the induction is on the depth that both are given. -/
theorem spelt (n : Nat) :
    (∀ bytes t r, first n bytes = some (t, r) →
      ∃ front, bytes = front ++ r ∧ Spells t front ∧ Done [t] r) ∧
    (∀ bytes ts r, more n bytes = (ts, r) →
      ∃ others, bytes = others ++ r ∧ Others ts others ∧ Done ts r) := by
  induction n using Nat.strongRecOn with
  | ind n ih =>
    constructor
    · intro bytes t r h
      cases n with
      | zero => cases h
      | succ n =>
        obtain ⟨speltFirst, speltMore⟩ := ih n n.lt_succ_self
        cases bytes with
        | nil => cases h
        | cons b bytes =>
          by_cases opened : b = openList
          · subst opened
            rcases list_of_first h with ⟨rfl, rfl⟩ | ⟨one, s, ts, made, rest, rfl⟩
            · exact ⟨[openList, closeList], rfl, .list .nil, done_list _ _⟩
            · obtain ⟨front, rfl, spells, -⟩ := speltFirst _ _ _ made
              obtain ⟨others, rfl, row, -⟩ := speltMore _ _ _ rest
              exact ⟨openList :: (front ++ others ++ [closeList]), by simp,
                .list (.cons spells row), done_list _ _⟩
          · exact flat_spelt opened h
    · intro bytes ts r h
      rcases more_made h with ⟨rfl, rfl⟩ | ⟨m, one, s, others, less, gap, made, rest, rfl⟩
      · exact ⟨[], rfl, .nil, done_nil _⟩
      · obtain ⟨front, parted, spells, last⟩ := (ih m less).1 _ _ _ made
        obtain ⟨written, rfl, row, last'⟩ := (ih m less).2 _ _ _ rest
        refine ⟨bytes.takeWhile isGap ++ (front ++ written), ?_,
          .cons gap (fun b hb => List.mem_takeWhile_imp hb) spells row, last.cons row last'⟩
        have whole := List.takeWhile_append_dropWhile (p := isGap) (l := bytes)
        rw [parted] at whole
        simpa using whole.symm

theorem Spells.ne_nil {front : List UInt8} (h : Spells t front) : front ≠ [] := by
  cases h with
  | atom some => exact some
  | quoted | literal | list => exact List.cons_ne_nil _ _

/-- A token is read as it is written, if no atom goes on behind it. -/
theorem first_done {front : List UInt8} (h : Spells t front) (deep : front.length < n)
    (done : Done [t] r) : first n (front ++ r) = some (t, r) := by
  obtain ⟨m, rfl⟩ := Nat.exists_eq_add_one_of_ne_zero (Nat.ne_zero_of_lt deep)
  cases h with
  | atom some all => exact first_atom some all (done _ rfl)
  | quoted h => simpa using first_quoted h
  | literal some all counted => simpa using first_literal some all counted
  | @list ts inside row =>
    have short : inside.length < m := by
      simp only [List.length_cons, List.length_append, List.length_nil] at deep
      omega
    simpa using first_row (reads m).1 (reads m).2 row short

/-- A token that is written there is found, though an atom may go on behind it. -/
theorem first_any {front : List UInt8} (h : Spells t front) (deep : front.length < n)
    (r : List UInt8) : ∃ one s, first n (front ++ r) = some (one, s) ∧ s <:+ r := by
  by_cases done : Done [t] r
  · exact ⟨t, r, first_done h deep done, List.suffix_refl r⟩
  · cases h with
    | quoted | literal => exact absurd (done_text _ r) done
    | list => exact absurd (done_list _ r) done
    | atom some all =>
      obtain ⟨m, rfl⟩ := Nat.exists_eq_add_one_of_ne_zero (Nat.ne_zero_of_lt deep)
      have longer : ∀ b ∈ front ++ r.takeWhile isAtomByte, isAtomByte b = true := by
        intro b hb
        rcases List.mem_append.1 hb with hb | hb
        · exact all b hb
        · exact List.mem_takeWhile_imp hb
      have made := first_atom (n := m) (r := r.dropWhile isAtomByte) (by simp [some]) longer
        (Splitting.ends_dropWhile isAtomByte r)
      rw [List.append_assoc, List.takeWhile_append_dropWhile] at made
      exact ⟨_, _, made, List.dropWhile_suffix isAtomByte⟩

theorem more_suffix (n : Nat) (bytes : List UInt8) : (more n bytes).2 <:+ bytes := by
  obtain ⟨others, parted, -⟩ := (spelt n).2 bytes _ _ rfl
  exact ⟨others, parted.symm⟩

/-- A token that is written there is gone through, and so is what is written behind it. -/
theorem first_more_any {front others : List UInt8} (one : Spells t front)
    (rest : Others ts others) (deep : front.length < n) (r : List UInt8)
    (through : (more n (others ++ r)).2 <:+ r) :
    ∃ t' s, first n (front ++ (others ++ r)) = some (t', s) ∧ (more n s).2 <:+ r := by
  by_cases last : others = []
  · obtain ⟨t', s, made, left⟩ := first_any one deep (others ++ r)
    rw [last, List.nil_append] at left
    exact ⟨t', s, made, (more_suffix n s).trans left⟩
  · exact ⟨t, _, (reads n).1 t front _ one deep (rest.ends_some last r), through⟩

theorem more_any {others : List UInt8} (h : Others ts others) (deep : others.length < n)
    (r : List UInt8) : (more n (others ++ r)).2 <:+ r := by
  induction n generalizing ts others with
  | zero => omega
  | succ n ih =>
    cases h with
    | nil => exact more_suffix _ r
    | @cons t ts gap front others some all one rest =>
      have short : front.length < n ∧ others.length < n := by
        have := List.length_pos_iff.2 some
        simp only [List.length_append] at deep
        omega
      have start := one.ends_gap (others ++ r)
      have whole : gap ++ (front ++ others) ++ r = gap ++ (front ++ (others ++ r)) := by simp
      have taken : gap.isEmpty = false := by simpa using some
      obtain ⟨t', s, made, left⟩ := first_more_any one rest short.1 r (ih rest short.2)
      rw [whole, more, Splitting.takeWhile_run all start, taken, Splitting.dropWhile_run all start,
        made]
      exact left

theorem several_spelt (bytes : List UInt8) :
    ∃ front, bytes = front ++ (several bytes).2 ∧ Row (several bytes).1 front ∧
      Done (several bytes).1 (several bytes).2 := by
  cases made : first (bytes.length + 1) bytes with
  | none =>
    simp only [several, made]
    exact ⟨[], rfl, .nil, done_nil _⟩
  | some found =>
    obtain ⟨t, s⟩ := found
    rcases rest : more (bytes.length + 1) s with ⟨ts, r⟩
    obtain ⟨front, parted, spells, last⟩ := (spelt _).1 _ _ _ made
    obtain ⟨others, rfl, row, last'⟩ := (spelt _).2 _ _ _ rest
    simp only [several, made, rest]
    exact ⟨front ++ others, by rw [List.append_assoc, ← parted], .cons spells row,
      last.cons row last'⟩

/-- Reading goes through every row that is written at the front. -/
theorem several_any {front : List UInt8} (h : Row ts front) (r : List UInt8) :
    (several (front ++ r)).2 <:+ r := by
  cases h with
  | nil =>
    obtain ⟨front, parted, -⟩ := several_spelt r
    exact ⟨front, parted.symm⟩
  | @cons t ts front others one rest =>
    have deep : front.length < (front ++ others ++ r).length + 1 ∧
        others.length < (front ++ others ++ r).length + 1 := by
      simp only [List.length_append]
      omega
    obtain ⟨t', s, made, left⟩ := first_more_any one rest deep.1 r (more_any rest deep.2 r)
    rw [← List.append_assoc] at made
    simp only [several, made]
    exact left

theorem Others.concat {others gap one : List UInt8} (h : Others ts others) (some : gap ≠ [])
    (all : ∀ b ∈ gap, isGap b = true) (next : Spells t one) :
    Others (ts ++ [t]) (others ++ (gap ++ one)) := by
  induction ts generalizing others with
  | nil =>
    cases h
    simpa using Others.cons some all next .nil
  | cons t' ts ih =>
    cases h with
    | cons some' all' first more => simpa using Others.cons some' all' first (ih more)

theorem Row.concat {front gap one : List UInt8} (h : Row ts front) (apart : gap = [] ↔ ts = [])
    (all : ∀ b ∈ gap, isGap b = true) (next : Spells t one) :
    Row (ts ++ [t]) (front ++ (gap ++ one)) := by
  cases h with
  | nil =>
    obtain rfl : gap = [] := apart.2 rfl
    simpa using Row.cons next .nil
  | cons first more =>
    have some : gap ≠ [] := fun none => nomatch apart.1 none
    simpa using Row.cons first (more.concat some all next)

/-- These tokens are written at the front of some bytes, and the rest is left: no longer front
is a row of tokens, nothing that could be the next token stands behind it, and if the last one
is an atom, it ends there. -/
structure Covers (bytes : List UInt8) (ts : List Token) (front rest : List UInt8) : Prop where
  parted : bytes = front ++ rest
  row : Row ts front
  longest : ∀ ts' front', Row ts' front' → front' <+: bytes → front' <+: front
  stuck : ∀ t gap one, (gap = [] ↔ ts = []) → (∀ b ∈ gap, isGap b = true) → Spells t one →
    ¬ gap ++ one <+: rest
  done : Done ts rest

theorem covers_several (bytes : List UInt8) :
    ∃ front, Covers bytes (several bytes).1 front (several bytes).2 := by
  obtain ⟨front, parted, row, done⟩ := several_spelt bytes
  have longest : ∀ ts' front', Row ts' front' → front' <+: bytes → front' <+: front := by
    rintro ts' front' row' ⟨rest', rfl⟩
    have through := (several_any row' rest').length_le
    have sizes := congrArg List.length parted
    simp only [List.length_append] at sizes
    exact List.prefix_of_prefix_length_le (List.prefix_append front' rest')
      ⟨_, parted.symm⟩ (by omega)
  refine ⟨front, parted, row, longest, ?_, done⟩
  rintro t gap one apart all next ⟨rest, left⟩
  have more := longest _ _ (row.concat apart all next)
    ⟨rest, by rw [parted, ← left, List.append_assoc]⟩
  have sizes := more.length_le
  have := List.length_pos_iff.2 next.ne_nil
  simp only [List.length_append] at sizes
  omega

/-- Nothing of a line is lost when it is read as data: its tokens are those that are written
at its front, as far as that goes, and what is left is one more atom unless it is blank. -/
theorem ofBytes_covers (bytes : List UInt8) : ∃ ts front rest, Covers bytes ts front rest ∧
    ofBytes bytes = ts ++
      if Blank.trim (Utf8.decode rest) = "" then [] else [.atom (Blank.trim (Utf8.decode rest))] := by
  obtain ⟨front, covers⟩ := covers_several bytes
  refine ⟨_, front, _, covers, ?_⟩
  simp only [ofBytes]
  split <;> simp

end ImapSession.Token
