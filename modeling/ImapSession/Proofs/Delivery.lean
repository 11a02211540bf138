import ImapSession.Proofs.Splitting
import ImapSession.Stream

/-!
What a stream delivers is a list of bytes: how these are cut into segments, and
where a reader is interrupted, cannot be told from what the readers take. The
statements are about smooth streams, which deliver bytes and nothing else; on
these a line and a count of bytes are taken exactly as from the list itself.
-/
namespace ImapSession.Stream

/-- The bytes on their way, however they are cut. -/
def delivered : List Segment → List UInt8
  | [] => []
  | .bytes data :: rest => data ++ delivered rest
  | .fault _ :: rest => delivered rest
  | .pause :: rest => delivered rest

/-- A segment that no reader stops at: bytes, or a fault that is passed over. -/
def isSmooth : Segment → Bool
  | .bytes _ => true
  | .fault f => f.kind = .interrupted
  | .pause => false

/-- Nothing but bytes comes out of these segments before they are used up. -/
def Smooth (segments : List Segment) : Prop := ∀ s ∈ segments, isSmooth s

@[simp] theorem delivered_nil : delivered [] = [] := rfl
@[simp] theorem delivered_bytes (data : List UInt8) (rest : List Segment) :
    delivered (.bytes data :: rest) = data ++ delivered rest := rfl
@[simp] theorem delivered_fault (f : Fault) (rest : List Segment) :
    delivered (.fault f :: rest) = delivered rest := rfl

@[simp] theorem smooth_nil : Smooth [] := by simp [Smooth]

@[simp] theorem smooth_cons (s : Segment) (rest : List Segment) :
    Smooth (s :: rest) ↔ isSmooth s ∧ Smooth rest := by simp [Smooth]

@[simp] theorem length_delivered (s : List Segment) : (delivered s).length = size s := by
  induction s with
  | nil => rfl
  | cons segment rest ih =>
    cases segment with
    | bytes data => simp [size, ih]
    | fault f => simpa [size] using ih
    | pause => simpa [size, delivered] using ih

/-- A chunk without an LF is taken whole, and the line goes on after it. -/
theorem line_open (idle : Idle) {data : List UInt8} (rest : List Segment) (h : lf ∉ data) :
    line idle (.bytes data :: rest) =
      ⟨data ++ (line idle rest).bytes, (line idle rest).stop, (line idle rest).rest⟩ := by
  have hd : data.dropWhile (· ≠ lf) = [] := by
    simpa using Splitting.dropWhile_run (Splitting.all_ne h) (Splitting.ends_nil _)
  rw [line, hd]

/-- A chunk with an LF in it gives a line, and what follows stays. -/
theorem line_closed (idle : Idle) {u : List UInt8} (v : List UInt8) (rest : List Segment)
    (h : lf ∉ u) :
    line idle (.bytes (u ++ lf :: v) :: rest) = ⟨u ++ [lf], .complete, .bytes v :: rest⟩ := by
  have ends : Splitting.Ends (fun b => decide (b ≠ lf)) (lf :: v) := by simp
  rw [line, Splitting.dropWhile_run (Splitting.all_ne h) ends,
    Splitting.takeWhile_run (Splitting.all_ne h) ends]

/-- The line at the front of what a smooth stream delivers is taken, and no more. -/
theorem line_of_delivered (idle : Idle) {s : List Segment} {a b : List UInt8} (smooth : Smooth s)
    (h : delivered s = a ++ lf :: b) (ha : lf ∉ a) :
    ∃ rest, line idle s = ⟨a ++ [lf], .complete, rest⟩ ∧ delivered rest = b ∧ Smooth rest := by
  induction s generalizing a with
  | nil => simp at h
  | cons segment rest ih =>
    obtain ⟨hs, tail⟩ := (smooth_cons _ _).1 smooth
    cases segment with
    | pause => simp [isSmooth] at hs
    | fault f =>
      obtain ⟨left, hl, hd⟩ := ih tail h ha
      have hk : f.kind = .interrupted := by simpa [isSmooth] using hs
      exact ⟨left, by simpa [line, hk] using hl, hd⟩
    | bytes data =>
      rw [delivered_bytes] at h
      by_cases hlf : lf ∈ data
      · obtain ⟨u, v, rfl, hu⟩ := List.eq_append_cons_of_mem hlf
        rw [List.append_assoc, List.cons_append] at h
        obtain ⟨rfl, hv⟩ := Splitting.at_first hu ha h
        exact ⟨.bytes v :: rest, line_closed idle v rest hu, hv, by simp [isSmooth, tail]⟩
      · obtain ⟨a', rfl, hr⟩ := Splitting.before_first hlf h
        obtain ⟨left, hl, hb⟩ := ih tail hr fun hm => ha (List.mem_append_right _ hm)
        exact ⟨left, by simp [line_open idle rest hlf, hl], hb⟩

/-- As many bytes as are asked for are taken from the front of what a smooth
stream delivers, and no more. -/
theorem exactly_of_delivered (idle : Idle) {s : List Segment} {a b : List UInt8}
    (smooth : Smooth s) (h : delivered s = a ++ b) :
    ∃ rest, exactly idle a.length s = ⟨a, .complete, rest⟩ ∧ delivered rest = b ∧ Smooth rest := by
  induction s generalizing a with
  | nil =>
    obtain ⟨rfl, rfl⟩ := List.append_eq_nil_iff.1 h.symm
    exact ⟨[], rfl, rfl, smooth⟩
  | cons segment rest ih =>
    obtain ⟨hs, tail⟩ := (smooth_cons _ _).1 smooth
    cases a with
    | nil => exact ⟨segment :: rest, rfl, h, smooth⟩
    | cons x xs =>
      cases segment with
      | pause => simp [isSmooth] at hs
      | fault f =>
        obtain ⟨left, hl, hd⟩ := ih tail h
        have hk : f.kind = .interrupted := by simpa [isSmooth] using hs
        exact ⟨left, by simpa [exactly, hk] using hl, hd⟩
      | bytes data =>
        rw [delivered_bytes] at h
        rcases List.append_eq_append_iff.1 h with ⟨a', ha, hr⟩ | ⟨c, rfl, hb⟩
        · have hlen : xs.length + 1 = data.length + a'.length := by
            simpa using congrArg List.length ha
          cases a' with
          | nil =>
            obtain rfl : x :: xs = data := by simpa using ha
            exact ⟨.bytes [] :: rest, by simp [exactly], by simpa using hr, by simp [isSmooth, tail]⟩
          | cons y ys =>
            obtain ⟨left, hl, hb⟩ := ih tail hr
            have hgt : ¬ xs.length + 1 ≤ data.length := by
              rw [List.length_cons] at hlen
              omega
            have hn : xs.length + 1 - data.length = (y :: ys).length := by omega
            refine ⟨left, ?_, hb⟩
            rw [List.length_cons, exactly, if_neg hgt, hn, hl, ha]
        · have hle : xs.length + 1 ≤ (x :: xs ++ c).length := by simp
          have htake : (x :: xs ++ c).take (xs.length + 1) = x :: xs := by simp
          have hdrop : (x :: xs ++ c).drop (xs.length + 1) = c := by simp
          refine ⟨.bytes c :: rest, ?_, by simpa using hb.symm, by simp [isSmooth, tail]⟩
          rw [List.length_cons, exactly, if_pos hle, htake, hdrop]

end ImapSession.Stream
