import Mathlib.Data.List.Infix
import ImapSession.Session.Opening

/-!
A link in use, seen by itself: what the client does with it, what the record
holds of that, and what comes back. A conversation is a row of such turns, and on
a given link it is the link that decides how each of them ends.
-/
namespace ImapSession

structure Wire where
  link : Link
  framer : Framer

/-- What a client does with a link before it waits for an answer. -/
inductive Use where
  | greeting
  | line (line shown : String)
  | secure
  deriving DecidableEq, Repr

def Use.acts : Use → List Act
  | .greeting => []
  | .line text shown => [.write text shown]
  | .secure => [.secure]

def tagged (tag : UInt64) (command : String) : String := toString tag.toNat ++ " " ++ command

def Use.command (tag : UInt64) (command : String) (sensitive : Bool) : Use :=
  .line (tagged tag command)
    (if sensitive then tagged tag Op.redacted else tagged tag command)

/-- One use of a link: what the record holds of it, and what came back. -/
structure Turn where
  use : Use
  acts : List Act
  answer : Except Failure (List Response)

/-- The acts that a server could notice. -/
def Act.onLink : Act → Bool
  | .establish => true
  | .close => true
  | .write _ _ => true
  | .secure => true
  | .dial => false
  | .report _ => false
  | .nonce => false

def Turn.noticed (t : Turn) : List Act := t.acts.filter Act.onLink

def refusal (r : Response) : Failure :=
  if (Refusal.ofResponse r).ofAbsence then .unavailable (Refusal.ofResponse r).text
  else .refused (Refusal.ofResponse r)

structure Heard where
  acts : List Act
  answer : Except Failure (List Response)
  wire : Wire

namespace Wire

variable {α : Type}

def reading (f : Framer → Stream → Except Failure α × Framer × Stream) (w : Wire) :
    Except Failure α × Wire :=
  if w.link.isOpen then
    let (result, framer, stream) := f w.framer w.link.stream
    (result, ⟨{ w.link with incoming := stream.segments }, framer⟩)
  else (.error (.link w.link.closedFault), w)

def collect (w : Wire) : Heard :=
  match w.reading Framer.batch with
  | (.error e, v) => ⟨[], .error e, v⟩
  | (.ok (before, last), v) =>
    if last.isContinuation || last.isOk then ⟨[], .ok (before ++ [last]), v⟩
    else ⟨[.report .serverError], .error (refusal last), { v with framer := .empty }⟩

def greeting (w : Wire) : Heard :=
  let (r, v) := w.reading Framer.next
  ⟨[], r.map fun r => [r], v⟩

def line (w : Wire) (line shown : String) : Heard :=
  match w.link.write line with
  | (.error f, l) => ⟨[], .error (.link f), { w with link := l }⟩
  | (.ok (), l) =>
    let h := collect { w with link := l }
    { h with acts := .write line shown :: h.acts }

/-- Encrypt the link. Nothing read before counts after. -/
def secure (w : Wire) : Heard :=
  let (result, l) := w.link.secure
  let acts := if w.link.isOpen then [.secure] else []
  match Op.upgraded result with
  | .error e => ⟨acts, .error e, { w with link := l }⟩
  | .ok () => ⟨acts, .ok [], ⟨l, .empty⟩⟩

def use (w : Wire) : Use → Heard
  | .greeting => w.greeting
  | .line text shown => w.line text shown
  | .secure => w.secure

def turn (w : Wire) (u : Use) : Turn := ⟨u, (w.use u).acts, (w.use u).answer⟩

/-- A conversation on a link, and the link after it. -/
inductive Plays (w : Wire) : List Turn → Wire → Prop
  | none : Plays w [] w
  | turn {turns : List Turn} {v : Wire} (before : Plays w turns v) (u : Use) :
      Plays w (turns ++ [v.turn u]) (v.use u).wire

/-- An answer ends in what the client was waiting for: it is the last line that
was read, and either asks for more or says that the command is done. -/
def Answers (rs : List Response) : Prop :=
  ∃ before last, rs = before ++ [last] ∧ Framer.isTerminal last ∧
    (last.isContinuation ∨ last.isOk)

end Wire

/-- A response is untagged unless it ends an answer. -/
theorem Response.untagged_iff {r : Response} :
    r.isUntagged = true ↔ Framer.isTerminal r = false := by
  obtain ⟨m, raw⟩ := r
  cases m <;>
    simp [isUntagged, Framer.isTerminal, isCompletion, isContinuation, tag?]

theorem Response.message_completion {r : Response} (h : r.isCompletion) :
    ∃ tag c, r.message = .completion tag c := by
  obtain ⟨m, raw⟩ := r
  cases m with
  | completion tag c => exact ⟨tag, c, rfl⟩
  | _ => simp [isCompletion, tag?] at h

theorem Response.not_continuation {r : Response} (h : r.isCompletion) :
    r.isContinuation = false := by
  obtain ⟨tag, c, completes⟩ := message_completion h
  simp [isContinuation, completes]

/-- The batch ends with the first response that ends an answer. -/
theorem Framer.isTerminal_batch {done : List Response} {f g : Framer} {s t : Stream}
    {before : List Response} {last : Response}
    (h : Framer.batchOnto done f s = (.ok (before, last), g, t)) : isTerminal last := by
  fun_induction Framer.batchOnto done f s with
  | case1 => simp at h
  | case2 done f s r g' t' hnext hterminal =>
    simp only [Prod.mk.injEq, Except.ok.injEq] at h
    rw [← h.1.2]
    exact hterminal
  | case3 done f s r g' t' hnext hterminal ih => exact ih h

/-- A link after use. What is on its way, the far end and the count of calls may have
changed; all else is as it was. -/
def Link.Used (l l' : Link) : Prop :=
  ∃ incoming peer writes, l' = { l with incoming, peer, writes }

theorem Link.used_write (l : Link) (line : String) : l.Used (l.write line).2 := by
  unfold Link.write
  split
  · exact ⟨_, _, _, rfl⟩
  · dsimp only
    split
    · exact ⟨_, _, _, rfl⟩
    · exact ⟨_, _, _, rfl⟩

/-- Writing does not change who gave the link out. -/
@[simp] theorem Link.owner_write (l : Link) (line : String) : (l.write line).2.owner = l.owner := by
  obtain ⟨incoming, peer, writes, used⟩ := l.used_write line
  rw [used]

/-- A line that goes out counts as one call on the link. -/
theorem Link.written {l : Link} {line : String} (h : (l.write line).1 = .ok ()) :
    ∃ incoming peer, (l.write line).2 = { l with incoming, peer, writes := l.writes + 1 } := by
  unfold Link.write at h ⊢
  split
  · rename_i closed
    simp [closed] at h
  · dsimp only
    split
    · rename_i hf
      simp_all
    · exact ⟨_, _, rfl⟩

@[simp] theorem Link.owner_secure (l : Link) : l.secure.2.owner = l.owner := by
  unfold Link.secure
  split
  · rfl
  · split <;> rfl

namespace Wire

/-- To read from a link changes nothing but what is on its way. -/
theorem link_reading (f : Framer → Stream → Except Failure α × Framer × Stream) (w : Wire) :
    ∃ incoming, (w.reading f).2.link = { w.link with incoming } := by
  unfold reading
  split
  · exact ⟨_, rfl⟩
  · exact ⟨_, rfl⟩

theorem link_collect (w : Wire) : ∃ incoming, w.collect.wire.link = { w.link with incoming } := by
  have read := link_reading Framer.batch w
  unfold collect
  split
  · rename_i hr
    rw [hr] at read
    exact read
  · rename_i hr
    rw [hr] at read
    split
    · exact read
    · exact read

theorem owner_reading (f : Framer → Stream → Except Failure α × Framer × Stream) (w : Wire) :
    (w.reading f).2.link.owner = w.link.owner := by
  obtain ⟨incoming, read⟩ := link_reading f w
  rw [read]

@[simp] theorem owner_collect (w : Wire) : w.collect.wire.link.owner = w.link.owner := by
  obtain ⟨incoming, read⟩ := link_collect w
  rw [read]

/-- A line that is answered counts as one call on the link. -/
theorem link_line {w : Wire} {text shown : String} {rs : List Response}
    (h : (w.line text shown).answer = .ok rs) : ∃ incoming peer,
      (w.line text shown).wire.link =
        { w.link with incoming, peer, writes := w.link.writes + 1 } := by
  rcases hw : w.link.write text with ⟨result, l⟩
  unfold Wire.line at h ⊢
  rw [hw] at h ⊢
  cases result with
  | error f => cases h
  | ok =>
    obtain ⟨incoming, peer, written⟩ := Link.written (by rw [hw])
    rw [hw] at written
    obtain rfl : l = _ := written
    obtain ⟨incoming', read⟩ := link_collect
      { w with link := { w.link with incoming, peer, writes := w.link.writes + 1 } }
    exact ⟨incoming', peer, read⟩

@[simp] theorem owner_use (w : Wire) (u : Use) : (w.use u).wire.link.owner = w.link.owner := by
  cases u with
  | greeting => exact owner_reading Framer.next w
  | line line shown =>
    have kept := w.link.owner_write line
    simp only [use, Wire.line]
    split
    · rename_i hw
      rw [hw] at kept
      exact kept
    · rename_i l hw
      rw [hw] at kept
      exact (owner_collect { w with link := l }).trans kept
  | secure =>
    have kept := w.link.owner_secure
    simp only [use, Wire.secure]
    split <;> exact kept

theorem collect_acts (w : Wire) : w.collect.acts.filter Act.onLink = [] := by
  unfold collect
  split
  · rfl
  · split
    · rfl
    · rfl

theorem answers_collect {w : Wire} {rs : List Response} (h : w.collect.answer = .ok rs) :
    Answers rs := by
  unfold collect at h
  split at h
  · simp at h
  · rename_i before last v hr
    split at h
    · rename_i hlast
      simp only [Except.ok.injEq] at h
      refine ⟨before, last, h.symm, ?_, by simpa using hlast⟩
      unfold reading at hr
      split at hr
      · simp only [Prod.mk.injEq] at hr
        exact Framer.isTerminal_batch (Prod.ext hr.1 rfl)
      · simp at hr
    · simp at h

theorem answers_line {w : Wire} {line shown : String} {rs : List Response}
    (h : (w.use (.line line shown)).answer = .ok rs) : Answers rs := by
  simp only [use, Wire.line] at h
  split at h
  · simp at h
  · exact answers_collect h

/-- What a server notices of a turn is its use, or nothing if that did not go through. -/
theorem noticed_turn (w : Wire) (u : Use) :
    (w.turn u).noticed = u.acts ∨ (w.turn u).noticed = [] := by
  cases u with
  | greeting => exact .inl rfl
  | line line shown =>
    simp only [turn, Turn.noticed, use, Wire.line, Use.acts]
    split
    · exact .inr rfl
    · refine .inl ?_
      simp only [List.filter_cons, collect_acts]
      rfl
  | secure =>
    simp only [turn, Turn.noticed, use, secure, Use.acts]
    cases h : w.link.isOpen <;> split <;> simp [Act.onLink]

theorem secure_not_mem {w : Wire} {text shown : String} :
    Act.secure ∉ (w.use (.line text shown)).acts := by
  intro hm
  have noticed : Act.secure ∈ (w.turn (.line text shown)).noticed := List.mem_filter.2 ⟨hm, rfl⟩
  rcases noticed_turn w (.line text shown) with whole | none
  · rw [whole] at noticed
    simp [Use.acts] at noticed
  · rw [none] at noticed
    simp at noticed

/-- An answer only comes to a use that went through. -/
theorem noticed_answered {w : Wire} {u : Use} {rs : List Response}
    (h : (w.turn u).answer = .ok rs) : (w.turn u).noticed = u.acts := by
  cases u with
  | greeting => rfl
  | line line shown =>
    simp only [turn, Turn.noticed, use, Wire.line, Use.acts] at h ⊢
    split
    · simp_all
    · simp only [List.filter_cons, collect_acts]
      rfl
  | secure =>
    simp only [turn, Turn.noticed, use, secure, Use.acts, Link.secure] at h ⊢
    cases hopen : w.link.isOpen
    · simp [hopen, Op.upgraded] at h
    · split <;> simp [Act.onLink]

theorem Plays.made {w v : Wire} {turns : List Turn} (h : w.Plays turns v) :
    ∀ turn ∈ turns, ∃ u : Wire, turn = u.turn turn.use := by
  induction h with
  | none => simp
  | @turn turns v before u ih =>
    exact List.forall_mem_append.2 ⟨ih, List.forall_mem_singleton.2 ⟨v, rfl⟩⟩

/-- What a server notices of turns that were all answered are their uses. -/
theorem noticed_uses {turns : List Turn} (made : ∀ turn ∈ turns, ∃ u : Wire, turn = u.turn turn.use)
    (answered : ∀ turn ∈ turns, ∃ rs, turn.answer = .ok rs) :
    turns.flatMap Turn.noticed = (turns.map Turn.use).flatMap Use.acts := by
  rw [List.flatMap_map]
  refine List.flatMap_congr fun turn hm => ?_
  obtain ⟨u, hu⟩ := made turn hm
  obtain ⟨rs, hr⟩ := answered turn hm
  rw [hu] at hr ⊢
  exact noticed_answered hr

/-- A last turn without an answer is noticed as far as its use went through. -/
theorem noticed_prefix {w v : Wire} {turns : List Turn} (h : w.Plays turns v)
    (answered : ∀ turn ∈ turns.dropLast, ∃ rs, turn.answer = .ok rs) :
    turns.flatMap Turn.noticed <+: (turns.map Turn.use).flatMap Use.acts := by
  cases h with
  | none => exact List.prefix_refl _
  | @turn before v plays u =>
    have first := noticed_uses plays.made (by simpa using answered)
    simp only [List.flatMap_append, List.map_append, first, List.flatMap_singleton,
      List.map_singleton]
    rcases noticed_turn v u with hn | hn
    · rw [hn]
      exact List.prefix_refl _
    · rw [hn, List.append_nil]
      exact List.prefix_append _ _

end Wire

end ImapSession
