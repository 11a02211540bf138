import ImapSession.Proofs.Chunking
import ImapSession.Proofs.Framing

/-!
Responses that are whole. What makes a response does not depend on what comes behind it;
so bytes that make one response when they come alone make the same one wherever they
stand, and responses that stand one after the other are read in this order, up to the
first that ends an answer.
-/
namespace ImapSession

open ImapSession.Stream (Smooth delivered Cell tape said)

namespace Stream

@[simp] theorem delivered_append (s t : List Segment) :
    delivered (s ++ t) = delivered s ++ delivered t := by
  induction s with
  | nil => rfl
  | cons segment rest ih =>
    cases segment with
    | bytes data => simp [ih]
    | fault f => simpa using ih
    | pause => exact ih

@[simp] theorem smooth_append {s t : List Segment} : Smooth (s ++ t) ↔ Smooth s ∧ Smooth t :=
  List.forall_mem_append

end Stream

/-- The bytes of the response, when they come alone, are read as this response. -/
def Response.Whole (r : Response) : Prop :=
  (Framer.empty.next ⟨[.bytes r.raw], .ended⟩).1.toOption = some r

instance (r : Response) : Decidable r.Whole := inferInstanceAs (Decidable (_ = some r))

namespace Framer

/-- One line that announces no literal is whole if it can be read. -/
theorem whole_of_line {r : Response} (isLine : Stream.IsLine r.raw) (silent : announced r.raw = none)
    (read : Line.response? r.raw = some r) : r.Whole := by
  obtain ⟨front, hraw, clean⟩ := isLine
  have taken : Stream.line .ended [.bytes r.raw] = ⟨r.raw, .complete, [.bytes []]⟩ := by
    rw [hraw]
    exact Stream.line_closed .ended [] [] clean
  have finished : pass .ended [] [.bytes r.raw] =
      .finished ⟨r.raw.reverse, 0, .response, [.bytes []]⟩ := by
    rw [announced] at silent
    simp only [pass, taken, List.append_nil, silent]
  have gathered : gather .ended empty.held.reverse [.bytes r.raw] =
      ⟨r.raw.reverse, 0, .response, [.bytes []]⟩ := gather_finished finished
  rw [Response.Whole, next_eq, gathered]
  simp only [conclude, List.reverse_reverse, read]
  rfl

/-- What is given as a response is what was gathered, read as a response. -/
theorem response_of_next {f g : Framer} {s t : Stream} {r : Response}
    (h : f.next s = (.ok r, g, t)) :
    Line.response? (gather s.idle f.held.reverse s.segments).back.reverse = some r := by
  unfold next at h
  simp only at h
  split at h
  · simp at h
  · simp at h
  · simp at h
  · split at h
    · rename_i r' hr
      simp only [Prod.mk.injEq, Except.ok.injEq] at h
      rw [hr, h.1]
    · simp at h

theorem next_alone {r : Response} (whole : r.Whole) :
    ∃ f t, empty.next ⟨[.bytes r.raw], .ended⟩ = (.ok r, f, t) := by
  rcases hn : empty.next ⟨[.bytes r.raw], .ended⟩ with ⟨outcome, f, t⟩
  rw [Response.Whole, hn] at whole
  cases outcome with
  | error e => cases whole
  | ok q => exact ⟨f, t, by rw [Option.some.inj whole]⟩

/-- A whole response is what its bytes are read as. -/
theorem response_of_whole {r : Response} (whole : r.Whole) : Line.response? r.raw = some r := by
  obtain ⟨f, t, hn⟩ := next_alone whole
  rw [(raw_of_next hn).2]
  exact response_of_next hn

/-- A whole response is read as itself in front of whatever it stands. -/
theorem next_whole {r : Response} {s : Stream} {more : List Cell} (whole : r.Whole)
    (h : tape s.segments = said r.raw ++ more) :
    ∃ left, empty.next s = (.ok r, empty, { s with segments := left }) ∧ tape left = more := by
  let g := gather .ended [] [.bytes r.raw]
  obtain ⟨f, t, hn⟩ := next_alone whole
  obtain ⟨done, hraw⟩ : g.outcome = .response ∧ r.raw = g.back.reverse := raw_of_next hn
  obtain ⟨taken, alone, hback⟩ : ∃ taken, tape [.bytes r.raw] = said taken ++ tape g.rest ∧
      g.back = taken.reverse ++ [] := gather_said done
  have spent : tape g.rest = [] := by
    rw [hback, List.append_nil, List.reverse_reverse] at hraw
    simpa [hraw] using alone
  have h' : tape s.segments = tape [.bytes r.raw] ++ more := by simpa using h
  obtain ⟨left, hg, hl⟩ := gather_before s.idle h' done
  have gathered : gather s.idle empty.held.reverse s.segments = { g with rest := left } := hg
  refine ⟨left, ?_, by rw [hl, spent, List.nil_append]⟩
  rw [next_eq, gathered]
  simp only [conclude, done, ← hraw, response_of_whole whole]

/-- Whole responses that do not end an answer are read up to the one that does. -/
theorem batchOnto_tape {before : List Response} {last : Response} {s : Stream} {more : List Cell}
    (done : List Response) (whole : ∀ r ∈ before ++ [last], r.Whole)
    (open_ : ∀ r ∈ before, isTerminal r = false) (terminal : isTerminal last)
    (h : tape s.segments = said ((before ++ [last]).flatMap Response.raw) ++ more) :
    ∃ left, batchOnto done empty s =
        (.ok (done.reverse ++ before, last), empty, { s with segments := left }) ∧
      tape left = more := by
  induction before generalizing done s with
  | nil =>
    obtain ⟨left, hn, hl⟩ := next_whole (whole last (by simp)) (by simpa using h)
    refine ⟨left, ?_, hl⟩
    rw [batchOnto_terminal hn terminal, List.append_nil]
  | cons r before ih =>
    have h' : tape s.segments =
        said r.raw ++ (said ((before ++ [last]).flatMap Response.raw) ++ more) := by simpa using h
    obtain ⟨behind, hn, hb⟩ := next_whole (whole r (by simp)) h'
    obtain ⟨left, hr, hl⟩ := @ih { s with segments := behind } (r :: done)
      (fun q hq => whole q (by simp [hq])) (fun q hq => open_ q (by simp [hq])) hb
    refine ⟨left, ?_, hl⟩
    rw [batchOnto_untagged hn (open_ r (by simp)), hr, List.reverse_cons, List.append_assoc]
    rfl

/-- Whole responses are read up to the one that ends an answer where only bytes follow. -/
theorem batchOnto_whole {before : List Response} {last : Response} {s : Stream} {b : List UInt8}
    (done : List Response) (whole : ∀ r ∈ before ++ [last], r.Whole)
    (open_ : ∀ r ∈ before, isTerminal r = false) (terminal : isTerminal last)
    (smooth : Smooth s.segments)
    (h : delivered s.segments = (before ++ [last]).flatMap Response.raw ++ b) :
    ∃ left, batchOnto done empty s =
        (.ok (done.reverse ++ before, last), empty, { s with segments := left }) ∧
      delivered left = b ∧ Smooth left := by
  have h' : tape s.segments = said ((before ++ [last]).flatMap Response.raw) ++ said b := by
    rw [Stream.tape_of_smooth smooth, h, Stream.said_append]
  obtain ⟨left, hr, hl⟩ := batchOnto_tape done whole open_ terminal h'
  obtain ⟨smoothLeft, hb⟩ := Stream.tape_eq_said.1 hl
  exact ⟨left, hr, hb, smoothLeft⟩

end Framer

end ImapSession
