import ImapSession.Proofs.Chunking
import ImapSession.Proofs.Framing

/-!
Where every byte goes. A read takes bytes off the stream, and together with what was held
these are the response it gives, or the line it refuses, or what is held from then on. In
one case only is more held than that: a literal that broke off leaves zero bytes in place
of its end. None of this depends on the bytes, on how they arrive, or on what stops them.
-/
namespace ImapSession

namespace Stream

variable {idle : Idle} {s : List Segment}

/-- A line and what it leaves are what was on the way. -/
theorem line_taken (idle : Idle) (s : List Segment) :
    delivered s = (line idle s).bytes ++ delivered (line idle s).rest := by
  have taken := lineOf_heard idle (tape s)
  rw [← line_onTape] at taken
  simpa [Taken.onTape] using taken

theorem isLine_of_line (complete : (line idle s).stop = .complete) :
    IsLine (line idle s).bytes := by
  have stop : (lineOf idle (tape s)).stop = .complete := by
    rw [← line_onTape]
    exact complete
  have line := (lineOf_complete stop).1
  rwa [← line_onTape] at line

theorem lf_not_mem_line (stopped : (line idle s).stop ≠ .complete) :
    lf ∉ (line idle s).bytes := by
  have stop : (lineOf idle (tape s)).stop ≠ .complete := by
    rw [← line_onTape]
    exact stopped
  have clean := lf_not_mem_lineOf stop
  rwa [← line_onTape] at clean

theorem exactly_taken (idle : Idle) (n : Nat) (s : List Segment) :
    delivered s = (exactly idle n s).bytes ++ delivered (exactly idle n s).rest := by
  have taken := exactlyOf_heard idle n (tape s)
  rw [← exactly_onTape] at taken
  simpa [Taken.onTape] using taken

theorem length_exactly {n : Nat} (complete : (exactly idle n s).stop = .complete) :
    (exactly idle n s).bytes.length = n := by
  have stop : (exactlyOf idle n (tape s)).stop = .complete := by
    rw [← exactly_onTape]
    exact complete
  have count := (exactlyOf_complete stop).1
  rwa [← exactly_onTape] at count

theorem length_exactly_lt {n : Nat} (stopped : (exactly idle n s).stop ≠ .complete) :
    (exactly idle n s).bytes.length < n := by
  have stop : (exactlyOf idle n (tape s)).stop ≠ .complete := by
    rw [← exactly_onTape]
    exact stopped
  have fewer := length_exactlyOf_lt stop
  rwa [← exactly_onTape] at fewer

end Stream

namespace Framer

open ImapSession.Stream (IsLine delivered lf)

/-- Lines taken together with the literals that they announce, behind what was held. -/
inductive Counted (held : List UInt8) : List UInt8 → Prop
  | none : Counted held []
  | literal {before line data : List UInt8} (counted : Counted held before) (isLine : IsLine line)
      (count : announced (held ++ (before ++ line)) = some data.length)
      (fits : data.length ≤ maxLiteral) : Counted held (before ++ line ++ data)

/-- Where a reading came to its end, with how many zero bytes in place of missing ones. -/
inductive Ending (held : List UInt8) : List UInt8 → Outcome → Nat → Prop
  | response {before line : List UInt8} (counted : Counted held before) (isLine : IsLine line)
      (silent : announced (held ++ (before ++ line)) = none) :
      Ending held (before ++ line) .response 0
  | lost {before part : List UInt8} (counted : Counted held before) (unfinished : lf ∉ part) :
      Ending held (before ++ part) .lost 0
  | fault {before part : List UInt8} (fault : Fault) (counted : Counted held before)
      (unfinished : lf ∉ part) : Ending held (before ++ part) (.fault fault) 0
  | oversized {before line : List UInt8} {n : Nat} (counted : Counted held before)
      (isLine : IsLine line) (count : announced (held ++ (before ++ line)) = some n)
      (large : maxLiteral < n) : Ending held (before ++ line) (.oversized n) 0
  | broken {before line data : List UInt8} {n : Nat} (fault : Fault) (counted : Counted held before)
      (isLine : IsLine line) (count : announced (held ++ (before ++ line)) = some n)
      (fits : n ≤ maxLiteral) (short : data.length < n) :
      Ending held (before ++ line ++ data) (.fault fault) (n - data.length)

theorem Counted.append {held front taken : List UInt8} (counted : Counted held front)
    (more : Counted (held ++ front) taken) : Counted held (front ++ taken) := by
  induction more with
  | none => simpa using counted
  | literal _ isLine count fits ih =>
    have longer := ih.literal isLine (by simpa using count) fits
    simpa using longer

theorem Ending.behind {held front taken : List UInt8} {outcome : Outcome} {blank : Nat}
    (counted : Counted held front) (h : Ending (held ++ front) taken outcome blank) :
    Ending held (front ++ taken) outcome blank := by
  cases h with
  | response more isLine silent =>
    rw [← List.append_assoc]
    exact .response (counted.append more) isLine (by simpa using silent)
  | lost more unfinished =>
    rw [← List.append_assoc]
    exact .lost (counted.append more) unfinished
  | fault e more unfinished =>
    rw [← List.append_assoc]
    exact .fault e (counted.append more) unfinished
  | oversized more isLine count large =>
    rw [← List.append_assoc]
    exact .oversized (counted.append more) isLine (by simpa using count) large
  | broken e more isLine count fits short =>
    rw [← List.append_assoc, ← List.append_assoc]
    exact .broken e (counted.append more) isLine (by simpa using count) fits short

theorem pass_taken (idle : Idle) (held : List UInt8) (s : List Segment) :
    match pass idle held.reverse s with
    | .finished g => ∃ taken, delivered s = taken ++ delivered g.rest ∧
        g.back = (held ++ taken).reverse ∧ Ending held taken g.outcome g.blank
    | .again back rest => ∃ taken, delivered s = taken ++ delivered rest ∧
        back = (held ++ taken).reverse ∧ Counted held taken := by
  have start : Counted held [] := .none
  have taken := Stream.line_taken idle s
  have read : (Stream.line idle s).bytes.reverse ++ held.reverse =
      (held ++ (Stream.line idle s).bytes).reverse := List.reverse_append.symm
  simp only [pass, read]
  cases stop : (Stream.line idle s).stop with
  | fault f => exact ⟨_, taken, rfl, .fault f start (Stream.lf_not_mem_line (by simp [stop]))⟩
  | ended => exact ⟨_, taken, rfl, .lost start (Stream.lf_not_mem_line (by simp [stop]))⟩
  | complete =>
    have isLine := Stream.isLine_of_line stop
    dsimp only
    cases count : announcedBack (held ++ (Stream.line idle s).bytes).reverse with
    | none => exact ⟨_, taken, rfl, .response start isLine count⟩
    | some n =>
      by_cases large : maxLiteral < n
      · simp only [large, if_true]
        exact ⟨_, taken, rfl, .oversized start isLine count large⟩
      · simp only [large, if_false]
        have fits : n ≤ maxLiteral := Nat.le_of_not_lt large
        have more := Stream.exactly_taken idle n (Stream.line idle s).rest
        rw [more, ← List.append_assoc] at taken
        have both : (Stream.exactly idle n (Stream.line idle s).rest).bytes.reverse ++
            (held ++ (Stream.line idle s).bytes).reverse = (held ++ ((Stream.line idle s).bytes ++
              (Stream.exactly idle n (Stream.line idle s).rest).bytes)).reverse := by simp
        simp only [both]
        cases stop : (Stream.exactly idle n (Stream.line idle s).rest).stop with
        | complete =>
          have all := Stream.length_exactly stop
          have counted : Counted held ([] ++ (Stream.line idle s).bytes ++
              (Stream.exactly idle n (Stream.line idle s).rest).bytes) :=
            start.literal isLine (by rw [all]; exact count) (by rw [all]; exact fits)
          exact ⟨_, taken, rfl, counted⟩
        | ended =>
          have short := Stream.length_exactly_lt (by rw [stop]; simp)
          exact ⟨_, taken, rfl, .broken shortLiteral start isLine count fits short⟩
        | fault f =>
          have short := Stream.length_exactly_lt (by rw [stop]; simp)
          exact ⟨_, taken, rfl, .broken f start isLine count fits short⟩

/-- What is gathered is what was held and what was taken, and nothing else. -/
theorem gather_taken (idle : Idle) (held : List UInt8) (s : List Segment) :
    ∃ taken, delivered s = taken ++ delivered (gather idle held.reverse s).rest ∧
      (gather idle held.reverse s).back = (held ++ taken).reverse ∧
      Ending held taken (gather idle held.reverse s).outcome (gather idle held.reverse s).blank := by
  generalize hn : Stream.size s = n
  induction n using Nat.strongRecOn generalizing held s with
  | ind n ih =>
    have step := pass_taken idle held s
    cases h : pass idle held.reverse s with
    | finished g =>
      rw [h] at step
      rw [gather_finished h]
      exact step
    | again back rest =>
      rw [h] at step
      obtain ⟨front, parted, rfl, counted⟩ := step
      obtain ⟨taken, left, gathered, ending⟩ :=
        ih _ (hn ▸ size_again h) (held ++ front) rest rfl
      rw [gather_again h]
      refine ⟨front ++ taken, ?_, ?_, ending.behind counted⟩
      · rw [parted, left, List.append_assoc]
      · rw [gathered, List.append_assoc]

/-- What was held and taken is what a read gives, or what is then held. -/
def Accounted (held taken : List UInt8) (result : Except Failure Response) (kept : Framer) : Prop :=
  match result with
  | .ok r => r.raw = held ++ taken ∧ kept = empty ∧ Ending held taken .response 0
  | .error (.breach (.unreadable text)) =>
    Line.response? (held ++ taken) = none ∧ text = Utf8.decode (Line.chomp (held ++ taken)) ∧
      kept = empty ∧ Ending held taken .response 0
  | .error .lost => kept.held = held ++ taken ∧ Ending held taken .lost 0
  | .error (.breach (.oversized n)) =>
    kept.held = held ++ taken ∧ Ending held taken (.oversized n) 0
  | .error (.link e) =>
    ∃ blank, kept.held = held ++ taken ++ List.replicate blank 0 ∧
      Ending held taken (.fault e) blank
  | .error _ => False

/-- Only a broken literal leaves anything blank. -/
theorem Ending.blank_eq {held taken : List UInt8} {outcome : Outcome} {blank : Nat}
    (h : Ending held taken outcome blank) (whole : ∀ e, outcome ≠ .fault e) : blank = 0 := by
  cases h with
  | response | lost | fault | oversized => rfl
  | broken e => exact absurd rfl (whole e)

theorem accounted_conclude {front taken : List UInt8} {g : Gathered} (s : Stream)
    (gathered : g.back = (front ++ taken).reverse)
    (ending : Ending front taken g.outcome g.blank) :
    Accounted front taken (conclude s g).1 (conclude s g).2.1 := by
  obtain ⟨back, blank, outcome, rest⟩ := g
  have all : back.reverse = front ++ taken := by simpa using congrArg List.reverse gathered
  cases outcome with
  | fault e =>
    simp only [conclude, all]
    exact ⟨blank, rfl, ending⟩
  | lost =>
    obtain rfl : blank = 0 := ending.blank_eq (by simp)
    simp only [conclude, all]
    exact ⟨List.append_nil _, ending⟩
  | oversized n =>
    obtain rfl : blank = 0 := ending.blank_eq (by simp)
    simp only [conclude, all]
    exact ⟨List.append_nil _, ending⟩
  | response =>
    obtain rfl : blank = 0 := ending.blank_eq (by simp)
    simp only [conclude, all]
    cases read : Line.response? (front ++ taken) with
    | none => exact ⟨read, rfl, rfl, ending⟩
    | some r => exact ⟨raw_of_response read, rfl, ending⟩

/-- A read accounts for every byte it takes. -/
theorem next_accounted (f : Framer) (s : Stream) : ∃ taken,
    delivered s.segments = taken ++ delivered (f.next s).2.2.segments ∧
      Accounted f.held taken (f.next s).1 (f.next s).2.1 := by
  obtain ⟨taken, parted, gathered, ending⟩ := gather_taken s.idle f.held s.segments
  rw [next_eq, rest_conclude]
  exact ⟨taken, parted, accounted_conclude s gathered ending⟩

def Step.taken (t : Step) : List UInt8 :=
  (delivered t.stream.segments).take (Stream.size t.stream.segments - Stream.size t.left.segments)

/-- A call conserves bytes. To drop what is held takes none; a read comes to its end within
as many passes as there are bytes on the way and one, and accounts for those it takes. -/
def Step.Conserves (t : Step) : Prop :=
  delivered t.stream.segments = t.taken ++ delivered t.left.segments ∧
    match t.answer with
    | none => t.taken = [] ∧ t.kept = empty ∧ t.left = t.stream
    | some answer =>
      nextWithin (Stream.size t.stream.segments + 1) t.framer t.stream =
          some (answer, t.kept, t.left) ∧
        Accounted t.framer.held t.taken answer t.kept

theorem Step.taken_eq {t : Step} {bytes : List UInt8}
    (h : delivered t.stream.segments = bytes ++ delivered t.left.segments) : t.taken = bytes := by
  have sizes : Stream.size t.stream.segments = bytes.length + Stream.size t.left.segments := by
    rw [← Stream.length_delivered, ← Stream.length_delivered, h, List.length_append]
  have count : Stream.size t.stream.segments - Stream.size t.left.segments = bytes.length := by
    omega
  rw [Step.taken, count, h, List.take_left]

theorem conserves_made (c : Call) (f : Framer) (s : Stream) : (Step.made c f s).Conserves := by
  cases c with
  | read =>
    obtain ⟨taken, parted, accounted⟩ := next_accounted f s
    have same : (Step.made .read f s).taken = taken := Step.taken_eq parted
    rw [Step.Conserves, same]
    exact ⟨parted, nextWithin_eq f (Nat.lt_succ_self _), accounted⟩
  | discard =>
    have same : (Step.made .discard f s).taken = [] := Step.taken_eq rfl
    rw [Step.Conserves, same]
    exact ⟨rfl, rfl, rfl, rfl⟩

/-- Of any stream, whatever is called for and in whatever order, each call conserves bytes,
and what all of them took is the front of what was on the way. -/
theorem bytes_conserved (calls : List Call) (f : Framer) (s : Stream) :
    (∀ t ∈ steps calls f s, t.Conserves) ∧
      delivered s.segments =
        (steps calls f s).flatMap Step.taken ++ delivered (remains calls f s).segments := by
  induction calls generalizing f s with
  | nil => simp [steps, remains]
  | cons c calls ih =>
    have first := conserves_made c f s
    obtain ⟨others, parted⟩ := ih (Step.made c f s).kept (Step.made c f s).left
    constructor
    · intro t ht
      simp only [steps, List.mem_cons] at ht
      cases ht with
      | inl eq => rw [eq]; exact first
      | inr later => exact others t later
    · have here : delivered s.segments =
          (Step.made c f s).taken ++ delivered (Step.made c f s).left.segments := by
        cases c <;> exact first.1
      rw [here, parted, steps, List.flatMap_cons, List.append_assoc]
      rfl

end Framer

end ImapSession
