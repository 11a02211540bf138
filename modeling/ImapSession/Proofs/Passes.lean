import ImapSession.Framer

/-!
The reading of a response, pass by pass: each pass takes a line and, if that announces a
literal, the literal with it. What a response is made of is decided by the passes alone,
and since each of them but the last takes bytes off the stream, there are no more of them
than bytes on the way and one.
-/
namespace ImapSession.Framer

/-- What comes of one pass: the reading is over, or another pass follows. -/
inductive Pass where
  | finished (gathered : Gathered)
  | again (back : List UInt8) (segments : List Segment)
  deriving DecidableEq, Repr

/-- One pass: a line, and the literal that it announces. -/
def pass (idle : Idle) (back : List UInt8) (segments : List Segment) : Pass :=
  let l := Stream.line idle segments
  let back := l.bytes.reverse ++ back
  match l.stop with
  | .fault f => .finished ⟨back, 0, .fault f, l.rest⟩
  | .ended => .finished ⟨back, 0, .lost, l.rest⟩
  | .complete =>
    match announcedBack back with
    | none => .finished ⟨back, 0, .response, l.rest⟩
    | some n =>
      if maxLiteral < n then .finished ⟨back, 0, .oversized n, l.rest⟩
      else
        let d := Stream.exactly idle n l.rest
        match d.stop with
        | .complete => .again (d.bytes.reverse ++ back) d.rest
        | .ended => .finished ⟨d.bytes.reverse ++ back, n - d.bytes.length, .fault shortLiteral, d.rest⟩
        | .fault f => .finished ⟨d.bytes.reverse ++ back, n - d.bytes.length, .fault f, d.rest⟩

/-- Passes are made until one of them is the last. -/
theorem gather_pass (idle : Idle) (back : List UInt8) (segments : List Segment) :
    gather idle back segments =
      match pass idle back segments with
      | .finished g => g
      | .again back segments => gather idle back segments := by
  rw [gather, pass]
  dsimp only
  split
  · rename_i stop
    simp only [stop]
  · rename_i stop
    simp only [stop]
  · rename_i stop
    simp only [stop]
    cases announcedBack ((Stream.line idle segments).bytes.reverse ++ back) with
    | none => rfl
    | some n =>
      by_cases large : maxLiteral < n
      · simp only [large, if_true]
      · simp only [large, if_false]
        cases (Stream.exactly idle n (Stream.line idle segments).rest).stop <;> rfl

theorem gather_finished {idle : Idle} {back : List UInt8} {segments : List Segment} {g : Gathered}
    (h : pass idle back segments = .finished g) : gather idle back segments = g := by
  rw [gather_pass, h]

theorem gather_again {idle : Idle} {back back' : List UInt8} {segments rest : List Segment}
    (h : pass idle back segments = .again back' rest) :
    gather idle back segments = gather idle back' rest := by
  rw [gather_pass, h]

/-- The reading has come from here to there, in passes that were not the last. -/
inductive Proceeds (idle : Idle) (back : List UInt8) (segments : List Segment) :
    List UInt8 → List Segment → Prop
  | none : Proceeds idle back segments back segments
  | pass {back' back'' : List UInt8} {rest rest' : List Segment}
      (before : Proceeds idle back segments back' rest)
      (again : pass idle back' rest = .again back'' rest') : Proceeds idle back segments back'' rest'

theorem Proceeds.gather {idle : Idle} {back back' : List UInt8} {segments rest : List Segment}
    (h : Proceeds idle back segments back' rest) :
    gather idle back segments = gather idle back' rest := by
  induction h with
  | none => rfl
  | pass _ again ih => rw [ih, gather_again again]

/-- A pass that is not the last takes bytes off the stream. -/
theorem size_again {idle : Idle} {back back' : List UInt8} {segments rest : List Segment}
    (h : pass idle back segments = .again back' rest) :
    Stream.size rest < Stream.size segments := by
  rw [pass] at h
  dsimp only at h
  split at h
  · cases h
  · cases h
  · rename_i ends
    split at h
    · cases h
    · rename_i n _
      split at h
      · cases h
      · split at h
        · have h₁ := Stream.size_line idle segments
          have h₂ := Stream.line_ne_nil ends
          have h₃ := Stream.size_exactly idle n (Stream.line idle segments).rest
          cases h
          omega
        · cases h
        · cases h

def within (idle : Idle) : Nat → List UInt8 → List Segment → Option Gathered
  | 0, _, _ => none
  | n + 1, back, segments =>
    match pass idle back segments with
    | .finished g => some g
    | .again back segments => within idle n back segments

/-- A reading need not be broken off after as many passes as there are bytes, and one. -/
theorem within_gather (idle : Idle) {n : Nat} (back : List UInt8) {segments : List Segment}
    (enough : Stream.size segments < n) :
    within idle n back segments = some (gather idle back segments) := by
  induction n generalizing back segments with
  | zero => omega
  | succ n ih =>
    cases h : pass idle back segments with
    | finished g => simp only [within, h, gather_finished h]
    | again back' rest =>
      have shorter := size_again h
      simp only [within, h, gather_again h]
      exact ih back' (by omega)

/-- What a reading gives once everything is gathered. -/
def conclude (s : Stream) (g : Gathered) : Except Failure Response × Framer × Stream :=
  let left : Stream := { s with segments := g.rest }
  let kept : Framer := ⟨g.back.reverse, g.blank⟩
  match g.outcome with
  | .fault e => (.error (.link e), kept, left)
  | .lost => (.error .lost, kept, left)
  | .oversized n => (.error (.breach (.oversized n)), kept, left)
  | .response =>
    let raw := g.back.reverse
    match Line.response? raw with
    | some r => (.ok r, empty, left)
    | none => (.error (.breach (.unreadable (Utf8.decode (Line.chomp raw)))), empty, left)

theorem next_eq (f : Framer) (s : Stream) :
    f.next s = conclude s (gather s.idle f.held.reverse s.segments) := rfl

/-- A stream that ends inside a line is a loss, and a fault there is the failure. -/
theorem next_ended (f : Framer) {s : Stream}
    (stop : (Stream.line s.idle s.segments).stop = .ended) : (f.next s).1 = .error .lost := by
  rw [next_eq, gather_pass, pass]
  simp only [stop, conclude]

theorem next_fault (f : Framer) {s : Stream} {e : Fault}
    (stop : (Stream.line s.idle s.segments).stop = .fault e) :
    (f.next s).1 = .error (.link e) := by
  rw [next_eq, gather_pass, pass]
  simp only [stop, conclude]

@[simp] theorem rest_conclude (s : Stream) (g : Gathered) :
    (conclude s g).2.2 = { s with segments := g.rest } := by
  rw [conclude]
  dsimp only
  split
  · rfl
  · rfl
  · rfl
  · split <;> rfl

/-- What is left behind does not show in what a reading gives. -/
theorem conclude_rest (s s' : Stream) (g : Gathered) (left : List Segment) :
    conclude s' { g with rest := left } =
      ((conclude s g).1, (conclude s g).2.1, { s' with segments := left }) := by
  obtain ⟨back, blank, outcome, rest⟩ := g
  cases outcome with
  | fault | lost | oversized => rfl
  | response =>
    simp only [conclude]
    cases Line.response? back.reverse <;> rfl

/-- The next response, if so many passes are enough to know it. -/
def nextWithin (n : Nat) (f : Framer) (s : Stream) :
    Option (Except Failure Response × Framer × Stream) :=
  (within s.idle n f.held.reverse s.segments).map (conclude s)

theorem nextWithin_eq (f : Framer) {s : Stream} {n : Nat} (enough : Stream.size s.segments < n) :
    nextWithin n f s = some (f.next s) := by
  rw [nextWithin, within_gather s.idle f.held.reverse enough]
  rfl

end ImapSession.Framer
