import ImapSession.Proofs.Cellwise
import ImapSession.Proofs.Mending
import ImapSession.Proofs.Phrasing

/-!
Reading on after the link failed. What stops a reader in the middle of a line costs it
nothing: it goes on from the bytes it holds. But of a literal that broke off the reader only
holds the length, the missing bytes blank, and what still comes of the literal is taken for
the line behind it. So what is read in the end is the same as without the stops exactly if
none of them falls between the bytes of a literal.
-/
namespace ImapSession

open ImapSession.Stream (Cell tape said heard delivered lf)

def Stream.joined (s : Stream) : Stream := ⟨[.bytes (delivered s.segments)], s.idle⟩

theorem Stream.heard_interrupted {c : Cell} (interrupts : c.Interrupts) (cells : List Cell) :
    heard (c :: cells) = heard cells := by
  cases c with
  | byte b => exact interrupts.elim
  | fault f => rfl
  | pause => rfl

theorem Stream.length_heard_le (cells : List Cell) : (heard cells).length ≤ cells.length := by
  induction cells with
  | nil => exact Nat.le_refl _
  | cons c cells ih =>
    cases c <;> simp only [heard, List.length_cons] <;> omega

/-- The bytes that show in a response or in what is said of a line that is none: no text
hides a zero byte or an LF. -/
def Found.marks (bytes : List UInt8) : List UInt8 :=
  bytes.filter fun b => Char.ofNat b.toNat = '\n' || Char.ofNat b.toNat = '\x00'

namespace Found

@[simp] theorem marks_append (a b : List UInt8) :
    marks (a ++ b) = marks a ++ marks b :=
  List.filter_append ..

@[simp] theorem marks_chomp (front : List UInt8) :
    marks (Line.chomp (front ++ [lf])) = marks front := by
  have outer : Line.chomp (front ++ [lf]) = Line.dropLastIf Token.cr front :=
    Line.chomp_closed front
  rw [outer]
  rcases Line.less_dropLastIf Token.cr front with parted | ⟨same, -⟩
  · have none : marks [Token.cr] = [] := by decide
    conv => rhs; rw [parted, marks_append, none, List.append_nil]
  · rw [same]

/-- What has the same answer shows the same bytes. -/
theorem marks_of_answer {front front' : List UInt8}
    (same : answer (.whole (front ++ [lf])) = answer (.whole (front' ++ [lf]))) :
    marks front = marks front' := by
  simp only [answer] at same
  cases read : Line.response? (front ++ [lf]) with
  | some r =>
    cases read' : Line.response? (front' ++ [lf]) with
    | none => simp [read, read'] at same
    | some r' =>
      simp only [read, read', Except.ok.injEq] at same
      have raws := (Framer.raw_of_response read).symm.trans
        (same ▸ Framer.raw_of_response read')
      rw [List.append_cancel_right raws]
  | none =>
    cases read' : Line.response? (front' ++ [lf]) with
    | some r' => simp [read, read'] at same
    | none =>
      simp only [read, read', Except.error.injEq, Failure.breach.injEq, Breach.unreadable.injEq] at same
      have small : ∀ c : Char, (c = '\n' || c = '\x00') = true → c.toNat < 0x80 := by
        intro c
        simp only [Bool.or_eq_true, decide_eq_true_eq]
        rintro (rfl | rfl) <;> decide
      have picked := Utf8.filter_decode small (Line.chomp (front ++ [lf]))
      rw [same, Utf8.filter_decode small] at picked
      have value : ∀ b : UInt8, (Char.ofNat b.toNat).toNat = b.toNat := fun b =>
        Utf8.toNat_scalar (.inl (Nat.lt_trans b.toNat_lt (by decide)))
      have inj : ∀ a b : UInt8, Char.ofNat a.toNat = Char.ofNat b.toNat → a = b := by
        intro a b chars
        have numbers := congrArg Char.toNat chars
        rwa [value, value, UInt8.toNat_inj] at numbers
      have rows := (List.map_inj_right inj).1 picked
      rw [← marks_chomp front, ← marks_chomp front']
      exact rows.symm

/-- Zero bytes in front of the end of a line show. -/
theorem marks_blank {held line z z' : List UInt8} {n : Nat} (clean : lf ∉ line)
    (same : marks (held ++ List.replicate n 0 ++ (line ++ lf :: z)) =
      marks (held ++ (line ++ lf :: z'))) : n = 0 := by
  have zeros : marks (List.replicate n 0) = List.replicate n 0 := by
    refine List.filter_eq_self.2 fun b hb => ?_
    obtain rfl := List.eq_of_mem_replicate hb
    decide
  have ends : ∀ z, marks (lf :: z) = lf :: marks z := fun z => List.filter_cons_of_pos (by decide)
  have clean' : lf ∉ marks line := fun h => clean (List.mem_filter.1 h).1
  have clean'' : lf ∉ List.replicate n 0 ++ marks line := by
    intro h
    rcases List.mem_append.1 h with zero | h
    · exact absurd (List.eq_of_mem_replicate zero) (by decide)
    · exact clean' h
  simp only [marks_append, zeros, ends, List.append_assoc, List.append_cancel_left_eq] at same
  rw [← List.append_assoc] at same
  have counts := congrArg List.length (Splitting.at_first clean'' clean' same).1
  rw [List.length_append, List.length_replicate] at counts
  omega

end Found

namespace Reader

/-- The bytes make one response: a reader finds it at their end and nothing before, and is
then where it began. -/
def Closes (raw : List UInt8) : Prop := start.run (said raw) = (start, [.whole raw])

instance (raw : List UInt8) : Decidable (Closes raw) := inferInstanceAs (Decidable (_ = _))

/-- The reader is stopped where bytes of a literal are due. -/
def Broken (r : Reader) (cells : List Cell) : Prop :=
  ∃ front c behind, cells = front ++ c :: behind ∧ c.Interrupts ∧
    0 < (r.run (said (heard front))).1.due

variable {r : Reader} {cells : List Cell}

theorem broken_byte (b : UInt8) : r.Broken (.byte b :: cells) ↔ (r.step (.byte b)).1.Broken cells := by
  constructor
  · rintro ⟨front, c, behind, parted, interrupts, due⟩
    cases front with
    | nil =>
      obtain ⟨rfl, -⟩ := List.cons.inj parted
      exact interrupts.elim
    | cons x front =>
      obtain ⟨rfl, rfl⟩ := List.cons.inj parted
      exact ⟨front, c, behind, rfl, interrupts, due⟩
  · rintro ⟨front, c, behind, rfl, interrupts, due⟩
    exact ⟨.byte b :: front, c, behind, rfl, interrupts, due⟩

theorem broken_interrupted {c : Cell} (interrupts : c.Interrupts) :
    r.Broken (c :: cells) ↔ 0 < r.due ∨ r.Broken cells := by
  constructor
  · rintro ⟨front, c', behind, parted, interrupts', due⟩
    cases front with
    | nil => exact .inl due
    | cons x front =>
      obtain ⟨rfl, rfl⟩ := List.cons.inj parted
      rw [Stream.heard_interrupted interrupts] at due
      exact .inr ⟨front, c', behind, rfl, interrupts', due⟩
  · rintro (due | ⟨front, c', behind, rfl, interrupts', due⟩)
    · exact ⟨[], c, cells, rfl, interrupts, due⟩
    · refine ⟨c :: front, c', behind, rfl, interrupts', ?_⟩
      rwa [Stream.heard_interrupted interrupts]

/-- Whether a reader is stopped inside a literal is told cell by cell. -/
def decBroken (r : Reader) : (cells : List Cell) → Decidable (r.Broken cells)
  | [] => .isFalse fun ⟨front, _, _, parted, _⟩ => by cases front <;> cases parted
  | .byte b :: cells =>
    have := decBroken (r.step (.byte b)).1 cells
    decidable_of_iff _ (broken_byte b).symm
  | .fault f :: cells =>
    have := decBroken r cells
    decidable_of_iff _ (broken_interrupted (c := .fault f) trivial).symm
  | .pause :: cells =>
    have := decBroken r cells
    decidable_of_iff _ (broken_interrupted (c := .pause) trivial).symm

instance (r : Reader) (cells : List Cell) : Decidable (r.Broken cells) := decBroken r cells

/-- In the middle of a line, nothing is lost. -/
theorem step_resumed {c : Cell} (interrupts : c.Interrupts) (line : r.due = 0) :
    r.step c = (r, []) := by
  obtain ⟨held, due⟩ := r
  obtain rfl : due = 0 := line
  rw [step_interrupted _ interrupts]
  simp

/-- A reader that is not stopped inside a literal finds what it would find in the bytes alone. -/
theorem run_unbroken (whole : ¬ r.Broken cells) : r.run cells = r.run (said (heard cells)) := by
  induction cells generalizing r with
  | nil => rfl
  | cons c cells ih =>
    by_cases interrupts : c.Interrupts
    · rw [broken_interrupted interrupts, not_or] at whole
      rw [Stream.heard_interrupted interrupts, run_cons,
        step_resumed interrupts (Nat.eq_zero_of_not_pos whole.1)]
      exact ih whole.2
    · cases c with
      | byte b =>
        rw [broken_byte] at whole
        simp [heard, ih whole]
      | fault f => exact absurd trivial interrupts
      | pause => exact absurd trivial interrupts

/-- A byte is held, unless it closes a response. -/
theorem step_byte (r : Reader) (b : UInt8) :
    (r.step (.byte b)).1.held = r.held ++ [b] ∧
        (∀ raw more, (r.step (.byte b)).2 ≠ .whole raw :: more) ∨
      b = lf ∧ r.step (.byte b) = (start, [.whole (r.held ++ [lf])]) := by
  obtain ⟨held, due⟩ := r
  cases due with
  | succ n => exact .inl ⟨rfl, by simp [step]⟩
  | zero =>
    by_cases hb : b = lf
    · subst hb
      have closed : step ⟨held, 0⟩ (.byte lf) = close (held ++ [lf]) := by simp [step]
      rw [closed, close]
      cases Framer.announced (held ++ [lf]) with
      | none => exact .inr ⟨rfl, rfl⟩
      | some n =>
        by_cases large : Framer.maxLiteral < n
        · simp [large]
        · simp [large]
    · simp [step, hb]

/-- As long as nothing is found, all bytes are held. -/
theorem held_run {bytes : List UInt8} (silent : (r.run (said bytes)).2 = []) :
    (r.run (said bytes)).1.held = r.held ++ bytes := by
  induction bytes generalizing r with
  | nil => simp
  | cons b bytes ih =>
    obtain ⟨first, others⟩ := List.append_eq_nil_iff.1 silent
    rw [Stream.said_cons, run_cons, ih others]
    rcases step_byte r b with ⟨kept, -⟩ | ⟨-, closed⟩
    · simp [kept]
    · rw [closed] at first
      cases first

/-- What is found first is closed by the first byte, or found behind it. -/
theorem whole_byte {b : UInt8} {raw : List UInt8} {more : List Found}
    (found : (r.run (.byte b :: cells)).2 = .whole raw :: more) :
    b = lf ∧ raw = r.held ++ [lf] ∨ (r.step (.byte b)).1.held = r.held ++ [b] ∧
      ((r.step (.byte b)).1.run cells).2 = .whole raw :: more := by
  rw [run_cons] at found
  rcases step_byte r b with ⟨kept, other⟩ | ⟨rfl, closed⟩
  · cases first : (r.step (.byte b)).2 with
    | nil =>
      rw [first] at found
      exact .inr ⟨kept, found⟩
    | cons f fs =>
      rw [first] at found
      obtain ⟨rfl, -⟩ := List.cons.inj found
      exact absurd first (other _ _)
  · rw [closed] at found
    have same := (List.cons.inj found).1
    exact .inl ⟨rfl, (Found.whole.inj same).symm⟩

/-- A response is found behind what was held, at the end of a line. Where only bytes come,
it is made of these. -/
theorem whole_behind {raw : List UInt8} {more : List Found}
    (found : (r.run cells).2 = .whole raw :: more) : ∃ x, raw = r.held ++ (x ++ [lf]) ∧
      ∀ bytes, cells = said bytes → x ++ [lf] <+: bytes := by
  induction cells generalizing r with
  | nil => cases found
  | cons c cells ih =>
    by_cases interrupts : c.Interrupts
    · rw [run_cons, step_interrupted r interrupts] at found
      obtain ⟨x, rfl, -⟩ := ih found
      refine ⟨List.replicate r.due 0 ++ x, by simp, fun bytes same => ?_⟩
      cases bytes with
      | nil => cases same
      | cons b bytes =>
        obtain ⟨rfl, -⟩ := List.cons.inj same
        exact interrupts.elim
    · cases c with
      | fault f => exact absurd trivial interrupts
      | pause => exact absurd trivial interrupts
      | byte b =>
        rcases whole_byte found with ⟨rfl, rfl⟩ | ⟨kept, behind⟩
        · refine ⟨[], rfl, fun bytes same => ?_⟩
          cases bytes with
          | nil => cases same
          | cons b bytes =>
            obtain ⟨rfl, -⟩ : lf = b ∧ _ := by simpa using same
            exact ⟨bytes, rfl⟩
        · obtain ⟨x, rfl, front⟩ := ih behind
          refine ⟨b :: x, by simp [kept], fun bytes same => ?_⟩
          cases bytes with
          | nil => cases same
          | cons b' bytes =>
            obtain ⟨rfl, rfl⟩ : b = b' ∧ cells = said bytes := by simpa using same
            exact (List.prefix_cons_inj b).2 (front bytes rfl)

/-- In the middle of a line, the rest of the line stands first in what is found. -/
theorem whole_line {held raw : List UInt8} {more : List Found}
    (found : (run ⟨held, 0⟩ cells).2 = .whole raw :: more) : ∃ line x behind, lf ∉ line ∧
      raw = held ++ (line ++ lf :: x) ∧ heard cells = line ++ lf :: behind := by
  induction cells generalizing held with
  | nil => cases found
  | cons c cells ih =>
    by_cases interrupts : c.Interrupts
    · rw [run_cons, step_resumed interrupts rfl] at found
      rw [Stream.heard_interrupted interrupts]
      exact ih found
    · cases c with
      | fault f => exact absurd trivial interrupts
      | pause => exact absurd trivial interrupts
      | byte b =>
        by_cases hb : b = lf
        · subst hb
          rcases whole_byte found with ⟨-, rfl⟩ | ⟨kept, behind⟩
          · exact ⟨[], [], heard cells, by simp, rfl, rfl⟩
          · obtain ⟨x, rfl, -⟩ := whole_behind behind
            exact ⟨[], x ++ [lf], heard cells, by simp, by simp [kept], rfl⟩
        · have read : step ⟨held, 0⟩ (.byte b) = (⟨held ++ [b], 0⟩, []) := by simp [step, hb]
          rw [run_cons, read] at found
          obtain ⟨line, x, behind, clean, rfl, parted⟩ := ih found
          exact ⟨b :: line, x, behind, by simp [clean, Ne.symm hb], by simp, by simp [heard, parted]⟩

/-- What a reader finds behind a literal that was left blank is no answer that it would have
given with the literal. -/
theorem blank_differs {held raw : List UInt8} {due : Nat} (some : 0 < due) {cells : List Cell}
    {more : List Found} (found : (run ⟨held, due⟩ (said (heard cells))).2 = .whole raw :: more) :
    ((run ⟨held ++ List.replicate due 0, 0⟩ cells).2.map Found.answer).head? ≠
      Option.some (Found.whole raw).answer := by
  intro same
  obtain ⟨x, rfl, made⟩ := whole_behind found
  cases blank : (run ⟨held ++ List.replicate due 0, 0⟩ cells).2 with
  | nil => simp [blank] at same
  | cons f fs =>
    have answers : f.answer = (Found.whole (held ++ (x ++ [lf]))).answer := by
      simpa [blank] using same
    cases f with
    | oversized n =>
      simp only [Found.answer] at answers
      split at answers <;> simp at answers
    | whole raw' =>
      obtain ⟨line, z, behind, clean, whole, parted⟩ := whole_line blank
      obtain ⟨x', ends, -⟩ := whole_behind blank
      obtain ⟨y, bytes⟩ := made _ rfl
      have front : line ++ lf :: behind = x ++ lf :: y := by rw [← parted, ← bytes]; simp
      obtain ⟨rest, rfl, first⟩ := Splitting.before_first clean front
      obtain ⟨z', again⟩ : ∃ z', rest ++ [lf] = lf :: z' := by
        cases rest with
        | nil => exact ⟨[], rfl⟩
        | cons b rest =>
          obtain ⟨rfl, -⟩ := List.cons.inj first
          exact ⟨rest ++ [lf], rfl⟩
      rw [ends, ← List.append_assoc, ← List.append_assoc] at answers
      have marks := Found.marks_of_answer answers
      have marks' := congrArg (· ++ Found.marks [lf]) marks
      simp only [← Found.marks_append, List.append_assoc, again] at marks'
      rw [ends, List.append_cancel_left_eq] at whole
      rw [whole, ← List.append_assoc] at marks'
      exact absurd (Found.marks_blank clean marks') (Nat.ne_of_gt some)

/-- If all bytes make responses, and the reader is stopped inside a literal, it finds
something else. -/
theorem broken_differs {raws : List (List UInt8)}
    (closes : r.run (said (heard cells)) = (start, raws.map Found.whole)) (broken : r.Broken cells) :
    (r.run cells).2.map Found.answer ≠ (raws.map Found.whole).map Found.answer := by
  induction cells generalizing r raws with
  | nil =>
    obtain ⟨front, c, behind, parted, -⟩ := broken
    simp at parted
  | cons c cells ih =>
    by_cases interrupts : c.Interrupts
    · rw [Stream.heard_interrupted interrupts] at closes
      by_cases line : r.due = 0
      · have later := ((broken_interrupted interrupts).1 broken).resolve_left (by omega)
        rw [run_cons, step_resumed interrupts line]
        exact ih closes later
      · obtain ⟨held, due⟩ := r
        intro same
        cases raws with
        | nil =>
          have kept := held_run (congrArg Prod.snd closes)
          rw [closes] at kept
          obtain ⟨rfl, none⟩ : held = [] ∧ heard cells = [] := by simpa [start] using kept
          rw [none] at closes
          exact line (congrArg (fun c => c.1.due) closes)
        | cons raw raws =>
          refine blank_differs (Nat.pos_of_ne_zero line) (congrArg Prod.snd closes) ?_
          rw [run_cons, step_interrupted _ interrupts, List.nil_append] at same
          rw [same]
          rfl
    · cases c with
      | fault f => exact absurd trivial interrupts
      | pause => exact absurd trivial interrupts
      | byte b =>
        rw [broken_byte] at broken
        rw [heard, Stream.said_cons, run_cons, Prod.mk.injEq] at closes
        obtain ⟨here, later, parted, first, others⟩ := List.map_eq_append_iff.1 closes.2.symm
        have rest : (r.step (.byte b)).1.run (said (heard cells)) =
            (start, later.map Found.whole) := Prod.ext closes.1 others.symm
        have differs := ih rest broken
        rw [run_cons, ← first, parted, List.map_append, List.map_append, List.map_append]
        intro same
        exact differs (List.append_cancel_left same)

/-- Bytes that make a response each are found one by one. -/
theorem run_closing {raws : List (List UInt8)} (closes : ∀ raw ∈ raws, Closes raw) :
    start.run (said raws.flatten) = (start, raws.map Found.whole) := by
  induction raws with
  | nil => rfl
  | cons raw raws ih =>
    have first : start.run (said raw) = (start, [.whole raw]) := closes raw (by simp)
    have others := ih fun other h => closes other (by simp [h])
    simp [first, others]

end Reader

namespace Framer

open Reader (start)

/-- Bytes alone are as many cells. -/
theorem news_joined {n : Nat} {s : Stream} (enough : (tape s.segments).length ≤ n) :
    news n empty s.joined =
      (start.run (said (heard (tape s.segments)))).2.map Found.answer := by
  have alone : tape s.joined.segments = said (heard (tape s.segments)) := by
    rw [Stream.heard_tape]
    exact List.append_nil _
  have fewer : (tape s.joined.segments).length ≤ n := by
    have := Stream.length_heard_le (tape s.segments)
    rw [alone, said, List.length_map]
    omega
  rw [news_run empty fewer, alone]
  rfl

/-- However the bytes are cut and whatever stops the readers between them, in the end the
same is read as without the stops, if none of these falls inside a literal. If the bytes
make responses, each of them is read, and any stop inside a literal shows. -/
theorem news_resumed {s : Stream} {n : Nat} (enough : (tape s.segments).length ≤ n) :
    (¬ start.Broken (tape s.segments) → news n empty s = news n empty s.joined) ∧
    ∀ raws : List (List UInt8), (∀ raw ∈ raws, Reader.Closes raw) →
      delivered s.segments = raws.flatten →
      news n empty s.joined = raws.map (fun raw => Found.answer (.whole raw)) ∧
        (news n empty s = news n empty s.joined ↔ ¬ start.Broken (tape s.segments)) := by
  have resumed : ¬ start.Broken (tape s.segments) → news n empty s = news n empty s.joined := by
    intro whole
    rw [news_joined enough, ← Reader.run_unbroken whole]
    exact news_run empty enough
  refine ⟨resumed, fun raws closes sent => ?_⟩
  have run := Reader.run_closing closes
  rw [← sent, ← Stream.heard_tape] at run
  have told : news n empty s.joined = (raws.map Found.whole).map Found.answer := by
    rw [news_joined enough, run]
  refine ⟨by rw [told, List.map_map]; rfl, fun same broken => ?_, resumed⟩
  rw [told, news_run empty enough] at same
  exact Reader.broken_differs run broken same

/-- A response with a literal and a line that is none, with stops in the count, between the
two bytes of a line end, right behind the literal and in the second line. -/
def halting : Stream :=
  ⟨[.bytes (Utf8.encode "* 1 X \x7b"), .fault ⟨.timedOut, ""⟩, .bytes (Utf8.encode "3\x7d\r"), .pause,
    .bytes (Utf8.encode "\na"), .fault ⟨.interrupted, ""⟩, .bytes (Utf8.encode "bc"),
    .fault ⟨.wouldBlock, ""⟩, .bytes (Utf8.encode ")\r\nwh"), .pause, .bytes (Utf8.encode "at\r\n")],
    .silent⟩

theorem news_halting :
    (tape halting.segments).length ≤ 30 ∧
    ¬ start.Broken (tape halting.segments) ∧ news 30 empty halting = news 30 empty halting.joined ∧
    news 30 empty halting.joined =
      [Utf8.encode "* 1 X \x7b3\x7d\r\nabc)\r\n", Utf8.encode "what\r\n"].map
        (fun raw => Found.answer (.whole raw)) := by
  have enough : (tape halting.segments).length ≤ 30 := by decide
  have whole : ¬ start.Broken (tape halting.segments) := by decide +kernel
  obtain ⟨resumed, closed⟩ := news_resumed enough
  exact ⟨enough, whole, resumed whole, (closed _ (by decide +kernel) (by decide)).1⟩

/-- A stop behind the first byte of a literal: the two bytes that are missing are left blank,
and are read once more as the beginning of the line behind the literal. -/
theorem news_blanked :
    let s : Stream := ⟨[.bytes (Utf8.encode "* 1 X \x7b3\x7d\r\na"), .fault ⟨.timedOut, ""⟩,
      .bytes (Utf8.encode "bc\r\n")], .ended⟩
    Reader.Closes (delivered s.segments) ∧ ∀ n, 20 ≤ n →
      news n empty s.joined =
        [Found.answer (.whole (Utf8.encode "* 1 X \x7b3\x7d\r\nabc\r\n"))] ∧
      news n empty s =
        [Found.answer (.whole (Utf8.encode "* 1 X \x7b3\x7d\r\na\x00\x00bc\r\n"))] ∧
      news n empty s ≠ news n empty s.joined := by
  intro s
  refine ⟨by decide +kernel, fun n many => ?_⟩
  have enough : (tape s.segments).length ≤ n := Nat.le_trans (by decide) many
  have blank : (start.run (tape s.segments)).2 =
      [.whole (Utf8.encode "* 1 X \x7b3\x7d\r\na\x00\x00bc\r\n")] := by decide +kernel
  have alone : (start.run (said (heard (tape s.segments)))).2 =
      [.whole (Utf8.encode "* 1 X \x7b3\x7d\r\nabc\r\n")] := by decide +kernel
  have told : news n empty s = _ := news_run empty enough
  have told' := news_joined enough
  rw [show (⟨empty.held, 0⟩ : Reader) = start from rfl, blank] at told
  rw [alone] at told'
  refine ⟨told', told, ?_⟩
  rw [told, told']
  decide +kernel

end Framer

end ImapSession
