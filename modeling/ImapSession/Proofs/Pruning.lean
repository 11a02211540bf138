import ImapSession.Proofs.Mirroring
import ImapSession.Proofs.Offering

/-!
Scripts from which names were struck. The answer to a query for the capabilities is made of
lines that offer some and of conditions, up to the response that ends it, if it comes to
that. An answer that was struck through line by line, read with nothing switched off,
offers the same as the answer as it was, read with the struck names switched off.
-/
namespace ImapSession

open ImapSession.Stream (Cell tape said)

/-- These cells do not go on with a byte. -/
def Stream.Stops : List Cell → Prop
  | .byte _ :: _ => False
  | _ => True

theorem Stream.lineOf_stops (idle : Idle) {more : List Cell} (stops : Stops more) :
    (lineOf idle more).stop ≠ .complete := by
  cases more with
  | nil => cases idle <;> simp [lineOf, whenIdle]
  | cons cell more =>
    cases cell with
    | byte b => exact stops.elim
    | fault f => simp [lineOf]
    | pause => simp [lineOf]

/-- A reader that is stopped before the end of a line says why, whatever there was of the
line. -/
theorem Framer.next_open (idle : Idle) {more : List Cell} (stops : Stream.Stops more) :
    ∃ e, ∀ part (s : Stream), Stream.lf ∉ part → s.idle = idle →
      tape s.segments = said part ++ more → (empty.next s).1 = .error e := by
  have met : ∀ part (s : Stream), Stream.lf ∉ part → s.idle = idle →
      tape s.segments = said part ++ more →
      (Stream.line s.idle s.segments).stop = (Stream.lineOf idle more).stop := by
    intro part s clean hs h
    have line := Stream.line_onTape s.idle s.segments
    rw [h, Stream.lineOf_open s.idle more clean, hs] at line
    rw [hs]
    exact congrArg Stream.Reading.stop line
  cases hstop : (Stream.lineOf idle more).stop with
  | complete => exact absurd hstop (Stream.lineOf_stops idle stops)
  | ended =>
    exact ⟨.lost, fun part s clean hs h => next_ended _ ((met part s clean hs h).trans hstop)⟩
  | fault f =>
    exact ⟨.link f, fun part s clean hs h => next_fault _ ((met part s clean hs h).trans hstop)⟩

namespace Capabilities

def spared (disabled : List String) (names : List Capability) : List Capability :=
  names.filter fun n => !isDisabled disabled n.text

/-- An answer, and what it is when the names switched off are struck from its offers; all
names that are left; and what comes behind the answer. Where the answer is cut off, how far
the line came makes no difference. -/
inductive Struck (disabled : List String) : List String → List Cell → List Cell → Prop
  | ended {last : Response} {more : List Cell} (whole : last.Whole)
      (terminal : Framer.isTerminal last) :
      Struck disabled [] (said last.raw ++ more) (said last.raw ++ more)
  | cut {part part' : List UInt8} {more : List Cell} (unended : Stream.lf ∉ part)
      (unended' : Stream.lf ∉ part') (stops : Stream.Stops more) :
      Struck disabled [] (said part ++ more) (said part' ++ more)
  | condition {r : Response} {c : Condition} {names : List String} {t t' : List Cell}
      (whole : r.Whole) (status : r.message = .untagged c) (rest : Struck disabled names t t') :
      Struck disabled names (said r.raw ++ t) (said r.raw ++ t')
  | offer (row : List Capability) {names : List String} {t t' : List Cell}
      (rest : Struck disabled names t t') :
      Struck disabled ((spared disabled row).map Capability.lower ++ names)
        (said (Capabilities.offer row).raw ++ t)
        (said (Capabilities.offer (spared disabled row)).raw ++ t')

def remaining (disabled : List String) (rs : List Response) : List String :=
  (listed rs).filter fun n => !(disabled.map Ascii.lower).contains n

theorem remaining_cons (disabled : List String) (r : Response) (rs : List Response) :
    remaining disabled (r :: rs) = remaining disabled [r] ++ remaining disabled rs := by
  rw [remaining, listed_cons, List.filter_append]
  rfl

theorem remaining_offer (disabled : List String) (row : List Capability) :
    remaining disabled [offer row] = (spared disabled row).map Capability.lower := by
  rw [remaining, listed_offer, spared, List.filter_map]
  refine congrArg _ (List.filter_congr fun n _ => ?_)
  rw [isDisabled_lower]
  rfl

theorem spared_none (names : List Capability) : spared [] names = names := by
  simp [spared, isDisabled]

theorem remaining_condition {disabled : List String} {r : Response} {c : Condition} (whole : r.Whole)
    (status : r.message = .untagged c) : remaining disabled [r] = [] := by
  have none : ofLine r = [] := ofLine_condition (Framer.response_of_whole whole) status
  have listed : listed [r] = [] := by
    simp only [listed, List.filter_cons, List.filter_nil]
    split <;> simp [none]
  rw [remaining, listed, List.filter_nil]

theorem remaining_terminal (disabled : List String) {r : Response} (terminal : Framer.isTerminal r) :
    remaining disabled [r] = [] := by
  have tagged : r.isUntagged = false := by
    cases hm : r.message <;>
      simp_all [Framer.isTerminal, Response.isCompletion, Response.tag?, Response.isContinuation,
        Response.isUntagged]
  simp [remaining, listed, tagged]

/-- The one answer leaves these names when some are switched off, and the other when none
are. -/
def Leave (disabled : List String) (names : List String) (rs rs' : List Response) : Prop :=
  remaining disabled rs = names ∧ remaining [] rs' = names

theorem has_of_leave {disabled names : List String} {rs rs' : List Response}
    (h : Leave disabled names rs rs') (name : String) :
    (ofResponses rs disabled).has name = names.contains (Ascii.lower name) ∧
      (ofResponses rs' []).has name = names.contains (Ascii.lower name) := by
  constructor
  · rw [has_ofResponses, ← h.1]
    rfl
  · rw [has_ofResponses, ← h.2]
    rfl

end Capabilities

namespace Framer

open Capabilities

/-- A response is read that ends no answer, and the rest of the answer behind it. -/
theorem batchOnto_open {r : Response} {s : Stream} {more : List Cell} (done : List Response)
    (whole : r.Whole) (open_ : isTerminal r = false) (h : tape s.segments = said r.raw ++ more) :
    ∃ behind, batchOnto done empty s = batchOnto (r :: done) empty { s with segments := behind } ∧
      tape behind = more := by
  obtain ⟨behind, hn, hb⟩ := next_whole whole h
  exact ⟨behind, batchOnto_untagged hn open_ done, hb⟩

theorem batchOnto_fails {f : Framer} {s : Stream} {e : Failure} (fails : (f.next s).1 = .error e)
    (done : List Response) : (batchOnto done f s).1 = .error e := by
  rcases read : f.next s with ⟨r, g, t⟩
  rw [read] at fails
  obtain rfl : r = .error e := fails
  rw [batchOnto_error read]

/-- Of an answer and of what is left of it as much is read, up to the same response, or
neither is read for the same reason. -/
theorem batchOnto_struck {disabled names : List String} {t t' : List Cell}
    (h : Struck disabled names t t') (done done' : List Response) {s s' : Stream}
    (idle : s'.idle = s.idle) (hs : tape s.segments = t) (hs' : tape s'.segments = t') :
    (∃ e, (batchOnto done empty s).1 = .error e ∧ (batchOnto done' empty s').1 = .error e) ∨
      ∃ before before' last left left',
        batchOnto done empty s =
          (.ok (done.reverse ++ before, last), empty, { s with segments := left }) ∧
        batchOnto done' empty s' =
          (.ok (done'.reverse ++ before', last), empty, { s' with segments := left' }) ∧
        tape left' = tape left ∧ Leave disabled names (before ++ [last]) (before' ++ [last]) := by
  induction h generalizing done done' s s' with
  | @ended last more whole terminal =>
    obtain ⟨left, hn, hl⟩ := next_whole whole hs
    obtain ⟨left', hn', hl'⟩ := next_whole whole hs'
    refine .inr ⟨[], [], last, left, left', ?_, ?_, hl'.trans hl.symm, ?_⟩
    · rw [batchOnto_terminal hn terminal, List.append_nil]
    · rw [batchOnto_terminal hn' terminal, List.append_nil]
    · exact ⟨remaining_terminal disabled terminal, remaining_terminal [] terminal⟩
  | @cut part part' more unended unended' stops =>
    obtain ⟨e, stopped⟩ := next_open s.idle stops
    exact .inl ⟨e, batchOnto_fails (stopped part s unended rfl hs) done,
      batchOnto_fails (stopped part' s' unended' idle hs') done'⟩
  | @condition r c names t t' whole status rest ih =>
    have open_ : isTerminal r = false := by
      simp [isTerminal, Response.isCompletion, Response.tag?, Response.isContinuation, status]
    obtain ⟨behind, hb, ht⟩ := batchOnto_open done whole open_ hs
    obtain ⟨behind', hb', ht'⟩ := batchOnto_open done' whole open_ hs'
    rw [hb, hb']
    refine (@ih (r :: done) (r :: done') { s with segments := behind }
      { s' with segments := behind' } idle ht ht').imp id ?_
    rintro ⟨before, before', last, left, left', hr, hr', same, leave⟩
    refine ⟨r :: before, r :: before', last, left, left', by simp [hr], by simp [hr'], same, ?_, ?_⟩
    · rw [List.cons_append, remaining_cons, remaining_condition whole status, leave.1, List.nil_append]
    · rw [List.cons_append, remaining_cons, remaining_condition whole status, leave.2, List.nil_append]
  | @offer row names t t' rest ih =>
    obtain ⟨behind, hb, ht⟩ := batchOnto_open done (whole_offer row) rfl hs
    obtain ⟨behind', hb', ht'⟩ := batchOnto_open done' (whole_offer (spared disabled row)) rfl hs'
    rw [hb, hb']
    refine (@ih (Capabilities.offer row :: done) (Capabilities.offer (spared disabled row) :: done')
      { s with segments := behind } { s' with segments := behind' } idle ht ht').imp id ?_
    rintro ⟨before, before', last, left, left', hr, hr', same, leave⟩
    refine ⟨Capabilities.offer row :: before, Capabilities.offer (spared disabled row) :: before', last,
      left, left', by simp [hr], by simp [hr'], same, ?_, ?_⟩
    · rw [List.cons_append, remaining_cons, remaining_offer, leave.1]
    · rw [List.cons_append, remaining_cons, remaining_offer, leave.2, spared_none]

/-- Nothing is held, and an answer is to be read that leaves these names. -/
def Ahead (disabled names : List String) (p p' : Unread) : Prop :=
  p.1 = .empty ∧ p'.1 = .empty ∧ Struck disabled names p.2 p'.2

theorem carries_struck (disabled names : List String) : Wire.Carries batch (Ahead disabled names)
    (Wire.Answered (fun a a' => Leave disabled names (a.1 ++ [a.2]) (a'.1 ++ [a'.2])) Unread.Any) := by
  rintro f f' s s' idle ⟨held, held', struck⟩
  obtain rfl : f = .empty := held
  obtain rfl : f' = .empty := held'
  rcases batchOnto_struck struck [] [] idle rfl rfl with
    ⟨e, hr, hr'⟩ | ⟨_, _, _, _, _, hr, hr', same, leave⟩
  · exact .inl ⟨e, hr, hr', trivial⟩
  · simp only [batch, hr, hr', List.reverse_nil, List.nil_append]
    exact .inr ⟨_, _, rfl, rfl, rfl, leave, by rw [same]⟩

end Framer

end ImapSession
