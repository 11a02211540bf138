import ImapSession.Proofs.Passes
import ImapSession.Proofs.Tape

/-!
Reading a tape. What a pass takes, and so what is gathered and what any number of calls
learn, is decided by what a reader comes upon; how the bytes are cut, and where a reader is
interrupted on the way to the next one, does not show. A response that is there in full
does not depend on what comes behind it.
-/
namespace ImapSession

namespace Framer

open ImapSession.Stream (Cell tape said)

variable {idle : Idle} {back : List UInt8} {s s' : List Segment}

/-- Two passes come to the same, apart from how what is left is cut. -/
def Pass.Alike : Pass → Pass → Prop
  | .finished g, .finished g' => ∃ left, g' = { g with rest := left } ∧ tape left = tape g.rest
  | .again back rest, .again back' rest' => back' = back ∧ tape rest' = tape rest
  | _, _ => False

theorem pass_alike (h : tape s' = tape s) : (pass idle back s).Alike (pass idle back s') := by
  obtain ⟨behind, hl, hb⟩ := @Stream.line_alike idle s s' h
  simp only [pass, hl]
  cases (Stream.line idle s).stop with
  | fault f => exact ⟨behind, rfl, hb⟩
  | ended => exact ⟨behind, rfl, hb⟩
  | complete =>
    dsimp only
    cases announcedBack ((Stream.line idle s).bytes.reverse ++ back) with
    | none => exact ⟨behind, rfl, hb⟩
    | some n =>
      obtain ⟨left, hd, ht⟩ := @Stream.exactly_alike idle _ _ n hb
      by_cases large : maxLiteral < n
      · simp only [large, if_true]
        exact ⟨behind, rfl, hb⟩
      · simp only [large, if_false, hd]
        cases (Stream.exactly idle n (Stream.line idle s).rest).stop with
        | complete => exact ⟨rfl, ht⟩
        | ended => exact ⟨left, rfl, ht⟩
        | fault f => exact ⟨left, rfl, ht⟩

/-- From streams with the same tape the same is gathered. -/
theorem gather_alike (h : tape s' = tape s) : ∃ left,
    gather idle back s' = { gather idle back s with rest := left } ∧
      tape left = tape (gather idle back s).rest := by
  generalize hn : Stream.size s = n
  induction n using Nat.strongRecOn generalizing back s s' with
  | ind n ih =>
    have alike := @pass_alike idle back s s' h
    cases hp : pass idle back s with
    | finished g =>
      cases hp' : pass idle back s' with
      | finished g' =>
        rw [hp, hp'] at alike
        rw [gather_finished hp, gather_finished hp']
        exact alike
      | again back' rest' => rw [hp, hp'] at alike; exact alike.elim
    | again back₁ rest =>
      cases hp' : pass idle back s' with
      | finished g' => rw [hp, hp'] at alike; exact alike.elim
      | again back' rest' =>
        rw [hp, hp'] at alike
        obtain ⟨rfl, same⟩ := alike
        rw [gather_again hp, gather_again hp']
        exact ih _ (hn ▸ size_again hp) same rfl

/-- The next response of two streams with the same tape, and what there is to be told of it. -/
theorem next_alike (f : Framer) {s s' : Stream} (idle : s'.idle = s.idle)
    (h : tape s'.segments = tape s.segments) : ∃ left,
    f.next s' = ((f.next s).1, (f.next s).2.1, { s' with segments := left }) ∧
      tape left = tape (f.next s).2.2.segments := by
  obtain ⟨left, hg, ht⟩ := @gather_alike s.idle f.held.reverse s.segments s'.segments h
  have gathered : gather s'.idle f.held.reverse s'.segments =
      { gather s.idle f.held.reverse s.segments with rest := left } := by rw [idle, hg]
  refine ⟨left, ?_, ?_⟩
  · rw [next_eq, next_eq, gathered, conclude_rest s s']
  · rw [ht, next_eq, rest_conclude]

/-- A whole response is the same with more behind it. -/
theorem gather_before (idle' : Idle) {more : List Cell} (h : tape s' = tape s ++ more)
    (done : (gather idle back s).outcome = .response) : ∃ left,
    gather idle' back s' = { gather idle back s with rest := left } ∧
      tape left = tape (gather idle back s).rest ++ more := by
  fun_induction gather idle back s generalizing s' with
  | case1 | case2 | case4 | case6 | case7 => simp at done
  | case3 back s l back' ends =>
    rename_i hn
    obtain ⟨left, hl, ht⟩ := Stream.line_before idle' h ends
    refine ⟨left, gather_finished ?_, ht⟩
    simp only [pass, hl]
    simp only [l, back'] at hn ⊢
    rw [hn]
  | case5 back s l back' ends n hn hle d hd =>
    rename_i ih
    obtain ⟨mid, hl, hm⟩ := Stream.line_before idle' h ends
    obtain ⟨left, he, ht⟩ := Stream.exactly_before idle' hm hd
    obtain ⟨last, hg, hlast⟩ := ih ht done
    refine ⟨last, (gather_again ?_).trans hg, hlast⟩
    simp only [pass, hl]
    simp only [l, back'] at hn ⊢
    rw [hn]
    simp only [hle, if_false, he]
    rfl

/-- Nothing stood between the bytes of a response. -/
theorem gather_said (done : (gather idle back s).outcome = .response) : ∃ taken,
    tape s = said taken ++ tape (gather idle back s).rest ∧
      (gather idle back s).back = taken.reverse ++ back := by
  fun_induction gather idle back s with
  | case1 | case2 | case4 | case6 | case7 => simp at done
  | case3 back s l back' ends => exact ⟨_, Stream.line_said ends, rfl⟩
  | case5 back s l back' ends n _ _ d hd ih =>
    obtain ⟨taken, behind, hback⟩ := ih done
    refine ⟨l.bytes ++ d.bytes ++ taken, ?_, by rw [hback]; simp [back']⟩
    rw [Stream.line_said ends, Stream.exactly_said hd, behind]
    simp [l, d]

inductive Call where
  | read
  | discard
  deriving DecidableEq, Repr

/-- A call that was made: with what was held and on the way before it, what it answered, and
what is held and on the way after it. -/
structure Step where
  framer : Framer
  stream : Stream
  answer : Option (Except Failure Response)
  kept : Framer
  left : Stream

def Step.made (c : Call) (f : Framer) (s : Stream) : Step :=
  match c with
  | .read => ⟨f, s, some (f.next s).1, (f.next s).2.1, (f.next s).2.2⟩
  | .discard => ⟨f, s, none, empty, s⟩

def steps : List Call → Framer → Stream → List Step
  | [], _, _ => []
  | c :: calls, f, s =>
    Step.made c f s :: steps calls (Step.made c f s).kept (Step.made c f s).left

def remains : List Call → Framer → Stream → Stream
  | [], _, s => s
  | c :: calls, f, s => remains calls (Step.made c f s).kept (Step.made c f s).left

/-- What a caller learns from a call: its answer, and whether anything is held after it. -/
def Step.seen (t : Step) : Option (Except Failure Response) × Bool := (t.answer, t.kept.isHolding)

theorem made_alike (c : Call) (f : Framer) {s s' : Stream} (idle : s'.idle = s.idle)
    (h : tape s'.segments = tape s.segments) :
    (Step.made c f s').answer = (Step.made c f s).answer ∧
      (Step.made c f s').kept = (Step.made c f s).kept ∧
      (Step.made c f s').left.idle = (Step.made c f s).left.idle ∧
      tape (Step.made c f s').left.segments = tape (Step.made c f s).left.segments := by
  cases c with
  | read =>
    obtain ⟨left, hn, ht⟩ := next_alike f idle h
    have idles : (f.next s).2.2.idle = s.idle := by rw [next_eq, rest_conclude]
    simp only [Step.made, hn]
    exact ⟨trivial, trivial, idle.trans idles.symm, ht⟩
  | discard => exact ⟨rfl, rfl, idle, h⟩

/-- Callers learn the same from streams with the same tape. -/
theorem seen_alike (calls : List Call) (f : Framer) {s s' : Stream} (idle : s'.idle = s.idle)
    (h : tape s'.segments = tape s.segments) :
    (steps calls f s').map Step.seen = (steps calls f s).map Step.seen := by
  induction calls generalizing f s s' with
  | nil => rfl
  | cons c calls ih =>
    obtain ⟨answer, kept, idle', left⟩ := made_alike c f idle h
    simp only [steps, List.map_cons, Step.seen, answer, kept]
    exact congrArg _ (ih _ idle' left)

/-- Cutting the same bytes differently, and interrupting their readers elsewhere, changes
nothing that any number of calls can tell. -/
theorem seen_uncut (calls : List Call) (f : Framer) {s s' : Stream} (idle : s'.idle = s.idle)
    (smooth : Stream.Smooth s.segments) (smooth' : Stream.Smooth s'.segments)
    (same : Stream.delivered s'.segments = Stream.delivered s.segments) :
    (steps calls f s').map Step.seen = (steps calls f s).map Step.seen := by
  have tapes : tape s'.segments = tape s.segments := by
    rw [Stream.tape_of_smooth smooth, Stream.tape_of_smooth smooth', same]
  exact seen_alike calls f idle tapes

def unbroken : Stream :=
  ⟨[.bytes (Utf8.encode "* 1 X \x7b3\x7d\r\nabc)\r\n* OK")], .ended⟩

/-- A line with a literal and the beginning of another, cut inside the count, inside both line
ends and inside the literal. -/
def broken : Stream :=
  ⟨[.bytes (Utf8.encode "* 1 X \x7b"), .fault ⟨.interrupted, ""⟩, .bytes (Utf8.encode "3\x7d\r"),
    .bytes [], .bytes (Utf8.encode "\na"), .fault ⟨.interrupted, ""⟩, .bytes (Utf8.encode "bc)\r"),
    .bytes (Utf8.encode "\n* O"), .fault ⟨.interrupted, ""⟩, .bytes (Utf8.encode "K")], .ended⟩

theorem seen_broken :
    (steps [.read, .read, .discard, .read] empty broken).map Step.seen =
        (steps [.read, .read, .discard, .read] empty unbroken).map Step.seen ∧
      (steps [.read, .read, .discard, .read] empty broken).map (fun t => t.kept.isHolding) =
        [false, true, false, false] := by
  constructor
  · exact seen_uncut _ empty rfl (by simp [unbroken, Stream.isSmooth])
      (by simp [broken, Stream.isSmooth]) (by decide)
  · decide +kernel

end Framer

end ImapSession
