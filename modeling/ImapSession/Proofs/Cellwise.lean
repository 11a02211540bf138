import ImapSession.Proofs.Accounting

/-!
The reading of responses, cell by cell. A reader is in the middle of a line, or so many
bytes of a literal are still due; each byte takes it one step on, and what stops it costs it
the rest of a literal, which it leaves blank. What any number of calls for a response come
to, the failures of the link apart, is what a reader finds that goes through the cells once:
where one call ends and the next begins does not show.
-/
namespace ImapSession

open ImapSession.Stream (Cell tape said lf lineOf exactlyOf IsLine)

def Stream.Cell.Interrupts : Cell → Prop
  | .byte _ => False
  | .fault _ => True
  | .pause => True

namespace Stream

/-- Where a line breaks off, the cells are at an end, or there is something that stops readers. -/
theorem lineOf_stopped {idle : Idle} {cells : List Cell}
    (stopped : (lineOf idle cells).stop ≠ .complete) :
    cells = said (lineOf idle cells).bytes ∧ (lineOf idle cells).rest = [] ∨
      ∃ c, c.Interrupts ∧ cells = said (lineOf idle cells).bytes ++ c :: (lineOf idle cells).rest := by
  induction cells with
  | nil => exact .inl ⟨rfl, rfl⟩
  | cons cell cells ih =>
    cases cell with
    | byte b =>
      by_cases hb : b = lf
      · simp [lineOf, hb] at stopped
      · simp only [lineOf, hb, if_false, Reading.after] at stopped ⊢
        rcases ih stopped with ⟨ends, rest⟩ | ⟨c, interrupts, parted⟩
        · exact .inl ⟨by rw [said_cons, ← ends], rest⟩
        · exact .inr ⟨c, interrupts, by rw [said_cons, List.cons_append, ← parted]⟩
    | fault f => exact .inr ⟨.fault f, trivial, rfl⟩
    | pause => exact .inr ⟨.pause, trivial, rfl⟩

/-- Where a number of bytes breaks off, the cells are at an end, or there is something that stops
readers. -/
theorem exactlyOf_stopped {idle : Idle} {n : Nat} {cells : List Cell}
    (stopped : (exactlyOf idle n cells).stop ≠ .complete) :
    cells = said (exactlyOf idle n cells).bytes ∧ (exactlyOf idle n cells).rest = [] ∨
      ∃ c, c.Interrupts ∧
        cells = said (exactlyOf idle n cells).bytes ++ c :: (exactlyOf idle n cells).rest := by
  induction cells generalizing n with
  | nil => cases n <;> exact .inl ⟨rfl, rfl⟩
  | cons cell cells ih =>
    cases n with
    | zero => simp [exactlyOf] at stopped
    | succ n =>
      cases cell with
      | byte b =>
        rcases ih (n := n) stopped with ⟨ends, rest⟩ | ⟨c, interrupts, parted⟩
        · refine .inl ⟨?_, rest⟩
          simp only [exactlyOf, Reading.after, said_cons]
          rw [← ends]
        · refine .inr ⟨c, interrupts, ?_⟩
          simp only [exactlyOf, Reading.after, said_cons, List.cons_append]
          rw [← parted]
      | fault f => exact .inr ⟨.fault f, trivial, rfl⟩
      | pause => exact .inr ⟨.pause, trivial, rfl⟩

variable {idle : Idle} {s : List Segment}

theorem line_stopped (stopped : (line idle s).stop ≠ .complete) :
    tape s = said (line idle s).bytes ∧ tape (line idle s).rest = [] ∨
      ∃ c, c.Interrupts ∧ tape s = said (line idle s).bytes ++ c :: tape (line idle s).rest := by
  have stop : (lineOf idle (tape s)).stop ≠ .complete := by
    rw [← line_onTape]
    exact stopped
  have parted := lineOf_stopped stop
  rwa [← line_onTape] at parted

theorem exactly_stopped {n : Nat} (stopped : (exactly idle n s).stop ≠ .complete) :
    tape s = said (exactly idle n s).bytes ∧ tape (exactly idle n s).rest = [] ∨
      ∃ c, c.Interrupts ∧
        tape s = said (exactly idle n s).bytes ++ c :: tape (exactly idle n s).rest := by
  have stop : (exactlyOf idle n (tape s)).stop ≠ .complete := by
    rw [← exactly_onTape]
    exact stopped
  have parted := exactlyOf_stopped stop
  rwa [← exactly_onTape] at parted

end Stream

/-- What a reader finds: all the bytes of a response, or a literal that is too long. -/
inductive Found where
  | whole (raw : List UInt8)
  | oversized (length : Nat)
  deriving DecidableEq, Repr

def Found.answer : Found → Except Failure Response
  | .whole raw =>
    match Line.response? raw with
    | some r => .ok r
    | none => .error (.breach (.unreadable (Utf8.decode (Line.chomp raw))))
  | .oversized n => .error (.breach (.oversized n))

/-- A reader between two cells: what it holds, and how many bytes of a literal are due. -/
structure Reader where
  held : List UInt8
  due : Nat
  deriving DecidableEq, Repr

namespace Reader

def start : Reader := ⟨[], 0⟩

/-- A line has come to its end, behind all that is held. -/
def close (held : List UInt8) : Reader × List Found :=
  match Framer.announced held with
  | none => (start, [.whole held])
  | some n => if Framer.maxLiteral < n then (⟨held, 0⟩, [.oversized n]) else (⟨held, n⟩, [])

def step (r : Reader) : Cell → Reader × List Found
  | .byte b =>
    match r.due with
    | 0 => if b = lf then close (r.held ++ [b]) else (⟨r.held ++ [b], 0⟩, [])
    | n + 1 => (⟨r.held ++ [b], n⟩, [])
  | .fault _ => (⟨r.held ++ List.replicate r.due 0, 0⟩, [])
  | .pause => (⟨r.held ++ List.replicate r.due 0, 0⟩, [])

def run (r : Reader) : List Cell → Reader × List Found
  | [] => (r, [])
  | c :: cells => (((r.step c).1.run cells).1, (r.step c).2 ++ ((r.step c).1.run cells).2)

@[simp] theorem run_nil (r : Reader) : r.run [] = (r, []) := rfl

@[simp] theorem run_cons (r : Reader) (c : Cell) (cells : List Cell) : r.run (c :: cells) =
    (((r.step c).1.run cells).1, (r.step c).2 ++ ((r.step c).1.run cells).2) := rfl

@[simp] theorem run_append (r : Reader) (a b : List Cell) :
    r.run (a ++ b) = (((r.run a).1.run b).1, (r.run a).2 ++ ((r.run a).1.run b).2) := by
  induction a generalizing r with
  | nil => rfl
  | cons c a ih => simp [ih]

/-- Whatever stops a reader leaves the bytes blank that are due. -/
theorem step_interrupted (r : Reader) {c : Cell} (interrupts : c.Interrupts) :
    r.step c = (⟨r.held ++ List.replicate r.due 0, 0⟩, []) := by
  cases c with
  | byte b => exact interrupts.elim
  | fault f => rfl
  | pause => rfl

variable {held bytes : List UInt8}

/-- Bytes without an LF go on with the line. -/
theorem run_open (held : List UInt8) (clean : lf ∉ bytes) :
    run ⟨held, 0⟩ (said bytes) = (⟨held ++ bytes, 0⟩, []) := by
  induction bytes generalizing held with
  | nil => simp
  | cons b bytes ih =>
    have hb : b ≠ lf := fun h => clean (by simp [h])
    have rest := ih (held ++ [b]) fun h => clean (by simp [h])
    simp [step, hb, rest]

/-- A line is closed behind what is held. -/
theorem run_line (held : List UInt8) (line : IsLine bytes) :
    run ⟨held, 0⟩ (said bytes) = close (held ++ bytes) := by
  obtain ⟨front, rfl, clean⟩ := line
  simp [run_open held clean, step]

/-- Bytes of a literal are held, and no longer due. -/
theorem run_literal (held : List UInt8) {n : Nat} (enough : bytes.length ≤ n) :
    run ⟨held, n⟩ (said bytes) = (⟨held ++ bytes, n - bytes.length⟩, []) := by
  induction bytes generalizing held n with
  | nil => simp
  | cons b bytes ih =>
    cases n with
    | zero => simp at enough
    | succ n =>
      have rest := ih (held ++ [b]) (n := n) (by simpa using enough)
      simp [step, rest]

/-- As many bytes of a literal as there are come behind the line that announces it. -/
theorem run_announced (held : List UInt8) {data : List UInt8} {n : Nat} (line : IsLine bytes)
    (count : Framer.announced (held ++ bytes) = some n) (small : ¬ Framer.maxLiteral < n)
    (enough : data.length ≤ n) : run ⟨held, 0⟩ (said bytes ++ said data) =
      (⟨held ++ bytes ++ data, n - data.length⟩, []) := by
  have opened : run ⟨held, 0⟩ (said bytes) = (⟨held ++ bytes, n⟩, []) := by
    rw [run_line held line, close, count]
    simp only [small, if_false]
  rw [run_append, opened, run_literal _ enough]
  rfl

end Reader

namespace Framer

def Gathered.found (g : Gathered) : List Found :=
  match g.outcome with
  | .response => [.whole g.back.reverse]
  | .oversized n => [.oversized n]
  | .lost => []
  | .fault _ => []

def Gathered.kept (g : Gathered) : List UInt8 :=
  match g.outcome with
  | .response => []
  | _ => g.back.reverse ++ List.replicate g.blank 0

/-- The reading finds what a reader finds in the cells that it takes. Unless these are all
there are, the reader then is where the next reading begins. -/
def Retells (held : List UInt8) (cells : List Cell) (g : Gathered) : Prop :=
  ∃ taken, cells = taken ++ tape g.rest ∧ (Reader.run ⟨held, 0⟩ taken).2 = g.found ∧
    (tape g.rest = [] ∨ taken ≠ [] ∧ (Reader.run ⟨held, 0⟩ taken).1 = ⟨g.kept, 0⟩)

/-- A reading goes on after cells in which there was nothing to be found. -/
theorem Retells.behind {held held' : List UInt8} {front cells : List Cell} {g : Gathered}
    (silent : Reader.run ⟨held, 0⟩ front = (⟨held', 0⟩, [])) (h : Retells held' cells g) :
    Retells held (front ++ cells) g := by
  obtain ⟨taken, rfl, found, goes⟩ := h
  refine ⟨front ++ taken, (List.append_assoc _ _ _).symm, ?_, ?_⟩
  · rw [Reader.run_append, silent]
    exact found
  · refine goes.imp id ?_
    rintro ⟨some, comes⟩
    refine ⟨by simp [some], ?_⟩
    rw [Reader.run_append, silent]
    exact comes

/-- A reading that is broken off finds nothing, and leaves blank what was due. -/
theorem retells_broken {held held' : List UInt8} {due : Nat} {front cells : List Cell}
    {rest : List Segment} {outcome : Outcome} (breaks : outcome = .lost ∨ ∃ e, outcome = .fault e)
    (silent : Reader.run ⟨held, 0⟩ front = (⟨held', due⟩, []))
    (stops : cells = front ∧ tape rest = [] ∨ ∃ c, c.Interrupts ∧ cells = front ++ c :: tape rest) :
    Retells held cells ⟨held'.reverse, due, outcome, rest⟩ := by
  let g : Gathered := ⟨held'.reverse, due, outcome, rest⟩
  have none : g.found = [] ∧ g.kept = held' ++ List.replicate due 0 := by
    rcases breaks with rfl | ⟨e, rfl⟩ <;> simp [g, Gathered.found, Gathered.kept]
  rcases stops with ⟨rfl, ends⟩ | ⟨c, interrupts, rfl⟩
  · exact ⟨cells, by simp [ends], by rw [silent, none.1], .inl ends⟩
  · have step : Reader.run ⟨held, 0⟩ (front ++ [c]) = (⟨g.kept, 0⟩, []) := by
      rw [Reader.run_append, silent, Reader.run_cons, Reader.step_interrupted _ interrupts, none.2]
      rfl
    refine ⟨front ++ [c], by simp, ?_, .inr ⟨by simp, ?_⟩⟩
    · rw [step, none.1]
    · rw [step]

/-- A line that breaks off is still open. -/
theorem retells_open {idle : Idle} (held : List UInt8) {s : List Segment} {outcome : Outcome}
    (stopped : (Stream.line idle s).stop ≠ .complete)
    (breaks : outcome = .lost ∨ ∃ e, outcome = .fault e) : Retells held (tape s)
      ⟨(held ++ (Stream.line idle s).bytes).reverse, 0, outcome, (Stream.line idle s).rest⟩ :=
  retells_broken breaks (Reader.run_open held (Stream.lf_not_mem_line stopped))
    (Stream.line_stopped stopped)

section

variable {held line : List UInt8} {cells : List Cell}

/-- A line that ends the reading is one that closes what the reader holds. -/
theorem retells_closed {g : Gathered} (isLine : IsLine line)
    (parted : cells = said line ++ tape g.rest)
    (closes : Reader.close (held ++ line) = (⟨g.kept, 0⟩, g.found)) : Retells held cells g := by
  have some : said line ≠ [] := by
    obtain ⟨front, ends, -⟩ := isLine
    simp [ends]
  have ran := (Reader.run_line held isLine).trans closes
  exact ⟨said line, parted, by rw [ran], .inr ⟨some, by rw [ran]⟩⟩

variable {idle : Idle} {s : List Segment} {n : Nat}

theorem length_exactly_le (idle : Idle) (n : Nat) (s : List Segment) :
    (Stream.exactly idle n s).bytes.length ≤ n := by
  by_cases stop : (Stream.exactly idle n s).stop = .complete
  · exact Nat.le_of_eq (Stream.length_exactly stop)
  · exact Nat.le_of_lt (Stream.length_exactly_lt stop)

/-- Behind a literal that is there whole the reader is where the next line begins. -/
theorem run_exactly (isLine : IsLine line) (count : announced (held ++ line) = some n)
    (small : ¬ maxLiteral < n) (stop : (Stream.exactly idle n s).stop = .complete) :
    Reader.run ⟨held, 0⟩ (said line ++ said (Stream.exactly idle n s).bytes) =
      (⟨held ++ line ++ (Stream.exactly idle n s).bytes, 0⟩, []) := by
  have ran := Reader.run_announced held isLine count small (length_exactly_le idle n s)
  rwa [Stream.length_exactly stop, Nat.sub_self] at ran

/-- A literal that breaks off leaves blank what is due of it. -/
theorem retells_literal {outcome : Outcome} (isLine : IsLine line)
    (count : announced (held ++ line) = some n) (small : ¬ maxLiteral < n)
    (stopped : (Stream.exactly idle n s).stop ≠ .complete)
    (breaks : outcome = .lost ∨ ∃ e, outcome = .fault e) :
    Retells held (said line ++ tape s)
      ⟨(held ++ line ++ (Stream.exactly idle n s).bytes).reverse,
        n - (Stream.exactly idle n s).bytes.length, outcome, (Stream.exactly idle n s).rest⟩ := by
  refine retells_broken breaks
    (Reader.run_announced held isLine count small (length_exactly_le idle n s)) ?_
  rcases Stream.exactly_stopped stopped with ⟨ends, rest⟩ | ⟨c, interrupts, goes⟩
  · exact .inl ⟨by rw [← ends], rest⟩
  · exact .inr ⟨c, interrupts, by rw [List.append_assoc, ← goes]⟩

end

/-- The last pass finds what a reader finds; after any other one the reader is where the
next pass begins. -/
theorem pass_retells (idle : Idle) (held : List UInt8) (s : List Segment) :
    match pass idle held.reverse s with
    | .finished g => Retells held (tape s) g
    | .again back rest => ∃ held' front, back = held'.reverse ∧ tape s = front ++ tape rest ∧
        Reader.run ⟨held, 0⟩ front = (⟨held', 0⟩, []) := by
  have read : (Stream.line idle s).bytes.reverse ++ held.reverse =
      (held ++ (Stream.line idle s).bytes).reverse := List.reverse_append.symm
  simp only [pass, read]
  cases stop : (Stream.line idle s).stop with
  | fault f => exact retells_open held (by simp [stop]) (.inr ⟨f, rfl⟩)
  | ended => exact retells_open held (by simp [stop]) (.inl rfl)
  | complete =>
    have isLine := Stream.isLine_of_line stop
    have parted := Stream.line_said stop
    dsimp only
    cases count : announcedBack (held ++ (Stream.line idle s).bytes).reverse with
    | none =>
      have silent : announced (held ++ (Stream.line idle s).bytes) = none := count
      refine retells_closed isLine parted ?_
      rw [Reader.close, silent]
      simp [Gathered.kept, Gathered.found, Reader.start]
    | some n =>
      by_cases large : maxLiteral < n
      · have tells : announced (held ++ (Stream.line idle s).bytes) = some n := count
        simp only [large, if_true]
        refine retells_closed isLine parted ?_
        rw [Reader.close, tells]
        simp [large, Gathered.kept, Gathered.found]
      · have both : (Stream.exactly idle n (Stream.line idle s).rest).bytes.reverse ++
            (held ++ (Stream.line idle s).bytes).reverse = (held ++ (Stream.line idle s).bytes ++
              (Stream.exactly idle n (Stream.line idle s).rest).bytes).reverse := by simp
        simp only [large, if_false, both, parted]
        cases stop : (Stream.exactly idle n (Stream.line idle s).rest).stop with
        | ended => exact retells_literal isLine count large (by simp [stop]) (.inr ⟨_, rfl⟩)
        | fault f => exact retells_literal isLine count large (by simp [stop]) (.inr ⟨f, rfl⟩)
        | complete =>
          refine ⟨_, _, rfl, ?_, run_exactly isLine count large stop⟩
          rw [List.append_assoc, ← Stream.exactly_said stop]

/-- What is gathered is what a reader finds. -/
theorem gather_retells (idle : Idle) (held : List UInt8) (s : List Segment) :
    Retells held (tape s) (gather idle held.reverse s) := by
  generalize hn : Stream.size s = n
  induction n using Nat.strongRecOn generalizing held s with
  | ind n ih =>
    have step := pass_retells idle held s
    cases h : pass idle held.reverse s with
    | finished g =>
      rw [h] at step
      rw [gather_finished h]
      exact step
    | again back rest =>
      rw [h] at step
      obtain ⟨held', front, rfl, parted, silent⟩ := step
      rw [gather_again h, parted]
      exact (ih _ (hn ▸ size_again h) held' rest rfl).behind silent

def isNews : Except Failure Response → Bool
  | .ok _ => true
  | .error e => !e.isOfLink

def Step.news (t : Step) : Option (Except Failure Response) := t.answer.filter isNews

theorem news_conclude (s : Stream) (g : Gathered) :
    ((some (conclude s g).1).filter isNews).toList = g.found.map Found.answer ∧
      (conclude s g).2.1.held = g.kept := by
  obtain ⟨back, blank, outcome, rest⟩ := g
  cases outcome with
  | fault | lost | oversized => exact ⟨rfl, rfl⟩
  | response =>
    simp only [conclude, Gathered.found, Gathered.kept, List.map_cons, List.map_nil, Found.answer]
    cases Line.response? back.reverse with
    | none => exact ⟨rfl, rfl⟩
    | some r => exact ⟨rfl, rfl⟩

/-- The answers to so many calls for a response, the failures of the link apart. -/
def news (n : Nat) (f : Framer) (s : Stream) : List (Except Failure Response) :=
  (steps (List.replicate n .read) f s).filterMap Step.news

theorem news_succ (n : Nat) (f : Framer) (s : Stream) : ∃ taken,
    tape s.segments = taken ++ tape (f.next s).2.2.segments ∧
    news (n + 1) f s = (Reader.run ⟨f.held, 0⟩ taken).2.map Found.answer ++
      news n (f.next s).2.1 (f.next s).2.2 ∧
    (tape (f.next s).2.2.segments = [] ∨
      taken ≠ [] ∧ (Reader.run ⟨f.held, 0⟩ taken).1 = ⟨(f.next s).2.1.held, 0⟩) := by
  obtain ⟨taken, parted, found, goes⟩ := gather_retells s.idle f.held s.segments
  obtain ⟨told, kept⟩ := news_conclude s (gather s.idle f.held.reverse s.segments)
  rw [← next_eq] at told kept
  have rest : (f.next s).2.2 = { s with segments := (gather s.idle f.held.reverse s.segments).rest } := by
    rw [next_eq, rest_conclude]
  refine ⟨taken, by rw [rest, parted], ?_, by rw [rest, kept]; exact goes⟩
  rw [found, ← told]
  simp only [news, List.replicate_succ, steps, Step.made, List.filterMap_cons, Step.news]
  split <;> rename_i h <;> simp [h]

/-- As many calls as there are cells find what a reader finds that goes through them once. -/
theorem news_run {n : Nat} (f : Framer) {s : Stream} (enough : (tape s.segments).length ≤ n) :
    news n f s = (Reader.run ⟨f.held, 0⟩ (tape s.segments)).2.map Found.answer := by
  induction n generalizing f s with
  | zero =>
    have none : tape s.segments = [] := List.eq_nil_of_length_eq_zero (by omega)
    rw [none]
    rfl
  | succ n ih =>
    obtain ⟨taken, parted, first, goes⟩ := news_succ n f s
    rw [first, parted, Reader.run_append, List.map_append]
    congr 1
    rcases goes with ends | ⟨some, comes⟩
    · rw [ih _ (by simp [ends]), ends]
      rfl
    · have shorter : (tape (f.next s).2.2.segments).length ≤ n := by
        have count := congrArg List.length parted
        have := List.length_pos_iff.2 some
        rw [List.length_append] at count
        omega
      rw [ih _ shorter, comes]

end Framer

end ImapSession
