import ImapSession.Framer
import ImapSession.Proofs.Splitting

/-!
What a line announces. Only a count between braces right before the line end
counts, and it is looked for at the end of everything gathered so far, not at the
end of the last line.
-/
namespace ImapSession.Framer

open Token (openCount closeCount cr lf)

/-- The bytes end in a count of `n` between braces. -/
def Announces (bytes : List UInt8) (n : Nat) : Prop :=
  ∃ before digits, bytes = before ++ openCount :: (digits ++ [closeCount]) ∧ count? digits = some n

def EndsInCount (bytes : List UInt8) : Prop := ∃ n, Announces bytes n

theorem head_digits {digits : List UInt8} (all : digits.all Ascii.isDigit) :
    digits.head? ≠ some Line.plus := by
  intro h
  have : Ascii.isDigit Line.plus := List.all_eq_true.1 all _ (List.mem_of_head? h)
  simp [Ascii.isDigit, Line.plus] at this

/-- A row of decimal digits is the count it reads as, if that is a 64-bit word. -/
theorem count_decimal {digits : List UInt8} (some_digit : digits ≠ [])
    (all : digits.all Ascii.isDigit) (fits : Ascii.decimal digits ≤ maxCount) :
    count? digits = some (Ascii.decimal digits) := by
  simp only [count?, if_neg (head_digits all)]
  rw [if_pos ⟨some_digit, all, fits⟩]

/-- A number that is no 64-bit word is no count. -/
theorem count_large {digits : List UInt8} (all : digits.all Ascii.isDigit)
    (large : maxCount < Ascii.decimal digits) : count? digits = none := by
  simp only [count?, if_neg (head_digits all)]
  rw [if_neg]
  rintro ⟨-, -, fits⟩
  omega

/-- A count is made of digits and at most a plus in front. -/
theorem count_bytes {digits : List UInt8} {n : Nat} (h : count? digits = some n) :
    ∀ b ∈ digits, b = Line.plus ∨ Ascii.isDigit b := by
  intro b hb
  by_cases head : digits.head? = some Line.plus
  · obtain ⟨rest, rfl⟩ : ∃ rest, digits = Line.plus :: rest := by
      cases digits with
      | nil => simp at head
      | cons c rest => exact ⟨rest, by simpa using head⟩
    simp only [count?, if_pos head] at h
    split at h
    · rename_i valid
      rcases List.mem_cons.1 hb with rfl | hb
      · exact .inl rfl
      · exact .inr (List.all_eq_true.1 valid.2.1 b hb)
    · simp at h
  · simp only [count?, if_neg head] at h
    split at h
    · rename_i valid
      exact .inr (List.all_eq_true.1 valid.2.1 b hb)
    · simp at h

theorem open_not_mem {digits : List UInt8} {n : Nat} (h : count? digits = some n) :
    openCount ∉ digits := fun hm => by
  have := count_bytes h _ hm
  simp [openCount, Line.plus, Ascii.isDigit] at this

theorem lf_not_mem {digits : List UInt8} {n : Nat} (h : count? digits = some n) :
    lf ∉ digits := fun hm => by
  have := count_bytes h _ hm
  simp [lf, Line.plus, Ascii.isDigit] at this

/-- Before the line end stands a closing brace, and the nearest opening one before
that begins the count. -/
theorem announced_counted {u : List UInt8} (v : List UInt8) (hu : openCount ∉ u) :
    announcedBack (lf :: cr :: closeCount :: (u ++ openCount :: v)) = count? u.reverse := by
  have ends : Splitting.Ends (fun b => decide (b ≠ openCount)) (openCount :: v) := by simp
  have hd := Splitting.dropWhile_run (Splitting.all_ne hu) ends
  have ht := Splitting.takeWhile_run (Splitting.all_ne hu) ends
  simp only [announcedBack, List.head?_cons, List.tail_cons, if_true, hd, ht]

theorem announced_cases {back : List UInt8} {n : Nat}
    (h : announcedBack (lf :: cr :: back) = some n) :
    ∃ u v, back = closeCount :: (u ++ openCount :: v) ∧ openCount ∉ u ∧
      count? u.reverse = some n := by
  cases back with
  | nil => simp [announcedBack] at h
  | cons b r =>
    by_cases hb : b = closeCount
    · subst hb
      by_cases hm : openCount ∈ r
      · obtain ⟨u, v, rfl, hu⟩ := List.eq_append_cons_of_mem hm
        exact ⟨u, v, rfl, hu, (announced_counted v hu).symm.trans h⟩
      · have hd : r.dropWhile (fun b => decide (b ≠ openCount)) = [] := by
          simpa only [List.append_nil] using
            Splitting.dropWhile_run (Splitting.all_ne hm) (Splitting.ends_nil _)
        simp only [announcedBack, List.head?_cons, List.tail_cons, if_true, hd] at h
        simp at h
    · simp [announcedBack, hb] at h

/-- A line end right behind the bytes announces what the bytes end in. -/
theorem announced_line {bytes : List UInt8} {n : Nat} :
    announcedBack (bytes ++ [cr, lf]).reverse = some n ↔ Announces bytes n := by
  have crlf : (bytes ++ [cr, lf]).reverse = lf :: cr :: bytes.reverse := by simp
  rw [crlf]
  constructor
  · intro h
    obtain ⟨u, v, back, -, hn⟩ := announced_cases h
    refine ⟨v.reverse, u.reverse, ?_, hn⟩
    rw [← List.reverse_reverse bytes, back]
    simp
  · rintro ⟨before, digits, rfl, hn⟩
    have hu : openCount ∉ digits.reverse := by simpa using open_not_mem hn
    have back : (before ++ openCount :: (digits ++ [closeCount])).reverse =
        closeCount :: (digits.reverse ++ openCount :: before.reverse) := by simp
    rw [back, announced_counted _ hu, List.reverse_reverse, hn]

theorem announced_none {bytes : List UInt8} (h : ¬ EndsInCount bytes) :
    announcedBack (bytes ++ [cr, lf]).reverse = none := by
  cases hn : announcedBack (bytes ++ [cr, lf]).reverse with
  | none => rfl
  | some n => exact absurd ⟨n, announced_line.1 hn⟩ h

/-- No count goes on across a line end, so only what follows it decides. -/
theorem announces_after {before bytes : List UInt8} {n : Nat} :
    Announces (before ++ lf :: bytes) n ↔ Announces bytes n := by
  constructor
  · rintro ⟨x, digits, h, hn⟩
    rcases List.append_eq_append_iff.1 h with ⟨a, rfl, ha⟩ | ⟨c, rfl, hc⟩
    · cases a with
      | nil => simp [lf, openCount] at ha
      | cons b a =>
        simp only [List.cons_append, List.cons.injEq] at ha
        exact ⟨a, digits, ha.2, hn⟩
    · have hm : lf ∈ openCount :: (digits ++ [closeCount]) := by simp [hc]
      have := lf_not_mem hn
      simp [lf, openCount, closeCount] at hm this
      exact absurd hm this
  · rintro ⟨x, digits, rfl, hn⟩
    exact ⟨before ++ lf :: x, digits, by simp, hn⟩

end ImapSession.Framer
