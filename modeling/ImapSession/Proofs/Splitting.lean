/-!
Lists cut where a run of elements ends. Readers look for a line end, a brace or
a space by `takeWhile` and `dropWhile`; here is what these give on a list that
is written as the run and what follows it.
-/
namespace ImapSession.Splitting

variable {α : Type}

/-- A run ends where the rest does not go on with it. -/
def Ends (p : α → Bool) (rest : List α) : Prop := ∀ a, rest.head? = some a → p a = false

@[simp] theorem ends_nil (p : α → Bool) : Ends p [] := by simp [Ends]
@[simp] theorem ends_cons (p : α → Bool) (a : α) (rest : List α) :
    Ends p (a :: rest) ↔ p a = false := by simp [Ends]

theorem takeWhile_run {p : α → Bool} {run rest : List α} (all : ∀ a ∈ run, p a)
    (ends : Ends p rest) : (run ++ rest).takeWhile p = run := by
  rw [List.takeWhile_append_of_pos all]
  cases rest with
  | nil => simp
  | cons a rest => simp [(ends_cons p a rest).1 ends]

theorem dropWhile_run {p : α → Bool} {run rest : List α} (all : ∀ a ∈ run, p a)
    (ends : Ends p rest) : (run ++ rest).dropWhile p = rest := by
  rw [List.dropWhile_append_of_pos all]
  cases rest with
  | nil => rfl
  | cons a rest => simp [(ends_cons p a rest).1 ends]

/-- Elements with which a run does not go on end it. -/
theorem ends_append {p : α → Bool} {l : List α} (some : l ≠ []) (none : ∀ a ∈ l, p a = false)
    (rest : List α) : Ends p (l ++ rest) := by
  cases l with
  | nil => exact absurd rfl some
  | cons a l => simpa using none a (by simp)

/-- What is left of a list behind a run does not go on with it. -/
theorem ends_dropWhile (p : α → Bool) (l : List α) : Ends p (l.dropWhile p) := by
  intro a ha
  have stops := List.head?_dropWhile_not p l
  rw [ha] at stops
  simpa using stops

/-- Elements that are all before the first `b` of a list begin the part before it. -/
theorem before_first {b : α} {u x p q : List α} (hu : b ∉ u) (h : u ++ x = p ++ b :: q) :
    ∃ p', p = u ++ p' ∧ x = p' ++ b :: q := by
  rcases List.append_eq_append_iff.1 h with ⟨p', hp, hx⟩ | ⟨c, hc, hb⟩
  · exact ⟨p', hp, hx⟩
  · cases c with
    | nil => exact ⟨[], by simpa using hc.symm, by simpa using hb.symm⟩
    | cons c cs =>
      simp only [List.cons_append, List.cons.injEq] at hb
      simp [hc, ← hb.1] at hu

/-- The first `b` of a list parts it in one way only. -/
theorem at_first {b : α} {u x p q : List α} (hu : b ∉ u) (hp : b ∉ p)
    (h : u ++ b :: x = p ++ b :: q) : u = p ∧ x = q := by
  obtain ⟨p', rfl, hx⟩ := before_first hu h
  cases p' with
  | nil => simpa using hx
  | cons c cs =>
    simp only [List.cons_append, List.cons.injEq] at hx
    simp [← hx.1] at hp

/-- The last `b` of a list parts it in one way only. -/
theorem at_last {b : α} {u x p q : List α} (hu : b ∉ u) (hp : b ∉ p)
    (h : x ++ b :: u = q ++ b :: p) : x = q ∧ u = p := by
  have turned : u.reverse ++ b :: x.reverse = p.reverse ++ b :: q.reverse := by
    simpa using congrArg List.reverse h
  obtain ⟨behind, front⟩ := at_first (by simpa using hu) (by simpa using hp) turned
  exact ⟨List.reverse_inj.1 front, List.reverse_inj.1 behind⟩

/-- Elements among which there is no `b` are a run up to a `b`. -/
theorem all_ne [DecidableEq α] {b : α} {u : List α} (hu : b ∉ u) : ∀ a ∈ u, decide (a ≠ b) = true := by
  intro a ha
  have : a ≠ b := fun h => hu (h ▸ ha)
  simpa using this

/-- A list has no `b`, or it is cut at its first. -/
theorem cut_first [DecidableEq α] (b : α) (l : List α) :
    (b ∉ l ∧ l.takeWhile (· ≠ b) = l ∧ l.dropWhile (· ≠ b) = []) ∨
    ∃ front rest, b ∉ front ∧ l = front ++ b :: rest ∧ l.takeWhile (· ≠ b) = front ∧
      l.dropWhile (· ≠ b) = b :: rest := by
  by_cases mem : b ∈ l
  · obtain ⟨front, rest, rfl, before⟩ := List.eq_append_cons_of_mem mem
    have ends : Ends (fun a => decide (a ≠ b)) (b :: rest) := by simp
    exact .inr ⟨front, rest, before, rfl, takeWhile_run (all_ne before) ends,
      dropWhile_run (all_ne before) ends⟩
  · have run := takeWhile_run (all_ne mem) (ends_nil _)
    have rest := dropWhile_run (all_ne mem) (ends_nil _)
    rw [List.append_nil] at run rest
    exact .inl ⟨mem, run, rest⟩

end ImapSession.Splitting
