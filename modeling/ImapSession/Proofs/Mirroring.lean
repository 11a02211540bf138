import ImapSession.Proofs.Chunking
import ImapSession.Proofs.Pairing

/-!
Two links that differ in nothing but what there is to be read from them, now and once
they are encrypted, and the sessions on them. Nothing of it comes as an answer to what is
written. Whatever relation there is between the two scripts, reading carries it on; as long
as it is that they are the same, both sessions are told the same and do the same.
-/
namespace ImapSession

open ImapSession.Stream (Cell tape)

/-- Nothing is sent in answer to what goes over the link. -/
def Link.Scripted (l : Link) : Prop := l.peer.replies = [] ∧ l.peer.awaited = none

theorem Peer.hear_scripted {p : Peer} (replies : p.replies = []) (awaited : p.awaited = none)
    (bytes : List UInt8) : p.hear bytes = ([], p) := by
  induction bytes with
  | nil => rfl
  | cons b bytes ih =>
    have answer : p.answer = ([], p) := by simp only [answer, replies]
    simp only [hear, awaited, answer, ih, List.append_nil, ite_self]

/-- What becomes of a line has nothing to do with what there is to be read. -/
theorem Link.write_scripted {l : Link} (scripted : l.Scripted) (line : String) :
    ∃ r n, ∀ incoming upgrade, Link.write { l with incoming, upgrade } line =
      (r, { l with incoming, upgrade, writes := n }) := by
  by_cases opened : l.isOpen = true
  · cases hf : l.writeFaults.lookup (l.writes + 1) with
    | some f =>
      refine ⟨.error f, l.writes + 1, fun incoming upgrade => ?_⟩
      simp [write, writeFault?, opened, hf]
    | none =>
      refine ⟨.ok (), l.writes + 1, fun incoming upgrade => ?_⟩
      simp [write, writeFault?, opened, hf, Peer.hear_scripted scripted.1 scripted.2]
  · exact ⟨.error l.closedFault, l.writes, fun incoming upgrade => by simp [write, opened]⟩

/-- What there is to be read: what a framer holds, and the tape behind it. -/
abbrev Unread := Framer × List Cell

def Unread.Any (_ _ : Unread) : Prop := True

namespace Wire

def unread (w : Wire) : Unread := (w.framer, tape w.link.incoming)

/-- Two links, and what there is to be read from the one and from the other. -/
structure Beside (k : Nat) (u u' : Upgrade) (T : Unread → Unread → Prop) (w w' : Wire) : Prop where
  link : ∃ incoming, w'.link = { w.link with incoming, upgrade := u' }
  turned : w.link.upgrade = u
  owned : w.link.owner = k
  scripted : w.link.Scripted
  unread : T w.unread w'.unread

variable {α : Type} {k : Nat} {u u' : Upgrade} {T E : Unread → Unread → Prop} {w w' : Wire}

theorem Beside.imp (h : Beside k u u' T w w') (weaker : ∀ p p', T p p' → E p p') :
    Beside k u u' E w w' := { h with unread := weaker _ _ h.unread }

abbrev Reader (α : Type) := Framer → Stream → Except Failure α × Framer × Stream

/-- To read what is so related leads to such outcomes, and leaves what is so related. -/
def Carries (read : Reader α) (T : Unread → Unread → Prop)
    (post : Except Failure α → Except Failure α → Unread → Unread → Prop) : Prop :=
  ∀ f f' s s', s'.idle = s.idle → T (f, tape s.segments) (f', tape s'.segments) →
    post (read f s).1 (read f' s').1 ((read f s).2.1, tape (read f s).2.2.segments)
      ((read f' s').2.1, tape (read f' s').2.2.segments)

theorem Beside.reading {read : Reader α}
    {post : Except Failure α → Except Failure α → Unread → Unread → Prop}
    (h : Beside k u u' T w w') (carries : Carries read T post)
    (closed : ∀ e p p', T p p' → post (.error e) (.error e) p p') :
    Beside k u u' (post (w.reading read).1 (w'.reading read).1) (w.reading read).2
      (w'.reading read).2 := by
  obtain ⟨incoming, link⟩ := h.link
  by_cases opened : w.link.isOpen = true
  · have opened' : w'.link.isOpen = true := by rw [link, opened]
    have read := carries w.framer w'.framer w.link.stream w'.link.stream (by rw [link]; rfl) h.unread
    simp only [Wire.reading, if_pos opened, if_pos opened']
    exact ⟨⟨_, by rw [link]⟩, h.turned, h.owned, h.scripted, read⟩
  · have closed' : ¬ w'.link.isOpen = true := by rw [link]; exact opened
    have fault : w'.link.closedFault = w.link.closedFault := by rw [link]
    simp only [Wire.reading, if_neg opened, if_neg closed', fault]
    exact h.imp fun p p' => closed _ p p'

/-- Both read an answer, these two, and have the same left; or neither does, for the same
reason. -/
def Answered (B : List Response × Response → List Response × Response → Prop)
    (E : Unread → Unread → Prop) (r r' : Except Failure (List Response × Response))
    (p p' : Unread) : Prop :=
  (∃ e, r = .error e ∧ r' = .error e ∧ E p p') ∨
    ∃ a a', r = .ok a ∧ r' = .ok a' ∧ a'.2 = a.2 ∧ B a a' ∧ p' = p

end Wire

structure Heard.Beside (k : Nat) (u u' : Upgrade) (B : List Response → List Response → Prop)
    (E : Unread → Unread → Prop) (h h' : Heard) : Prop where
  acts : h'.acts = h.acts
  outcome : (∃ e, h.answer = .error e ∧ h'.answer = .error e ∧ h.wire.Beside k u u' E h'.wire) ∨
    ∃ rs rs', h.answer = .ok rs ∧ h'.answer = .ok rs' ∧ B rs rs' ∧ h.wire.Beside k u u' Eq h'.wire

namespace Wire

variable {k : Nat} {u u' : Upgrade} {T E : Unread → Unread → Prop} {w w' : Wire}
  {B : List Response → List Response → Prop}

theorem Beside.collect (h : Beside k u u' T w w')
    (carries : Carries Framer.batch T (Answered (fun a a' => B (a.1 ++ [a.2]) (a'.1 ++ [a'.2])) E))
    (closed : ∀ p p', T p p' → E p p') (broken : ∀ p, E p p) :
    Heard.Beside k u u' B E w.collect w'.collect := by
  have read := h.reading carries fun e p p' related => .inl ⟨e, rfl, rfl, closed p p' related⟩
  rcases hw : w.reading Framer.batch with ⟨r, v⟩
  rcases hw' : w'.reading Framer.batch with ⟨r', v'⟩
  rw [hw, hw'] at read
  rcases read.unread with ⟨e, rfl, rfl, left⟩ | ⟨⟨before, last⟩, ⟨before', _⟩, rfl, rfl, rfl, told, same⟩
  · simp only [Wire.collect, hw, hw']
    exact ⟨rfl, .inl ⟨e, rfl, rfl, { read with unread := left }⟩⟩
  · simp only [Wire.collect, hw, hw']
    split
    · exact ⟨rfl, .inr ⟨_, _, rfl, rfl, told, { read with unread := same.symm }⟩⟩
    · refine ⟨rfl, .inl ⟨_, rfl, rfl, { read with unread := ?_ }⟩⟩
      have tapes : tape v'.link.incoming = tape v.link.incoming := congrArg Prod.snd same
      show E (Framer.empty, tape v.link.incoming) (Framer.empty, tape v'.link.incoming)
      rw [tapes]
      exact broken _

theorem Beside.line (h : Beside k u u' T w w')
    (carries : Carries Framer.batch T (Answered (fun a a' => B (a.1 ++ [a.2]) (a'.1 ++ [a'.2])) E))
    (closed : ∀ p p', T p p' → E p p') (broken : ∀ p, E p p) (text shown : String) :
    Heard.Beside k u u' B E (w.line text shown) (w'.line text shown) := by
  obtain ⟨incoming, link⟩ := h.link
  obtain ⟨r, n, write⟩ := Link.write_scripted h.scripted text
  have here : w.link.write text = (r, { w.link with writes := n }) :=
    write w.link.incoming w.link.upgrade
  have there : w'.link.write text = (r, { w'.link with writes := n }) := by
    rw [link]
    exact write incoming u'
  have written : Beside k u u' T { w with link := { w.link with writes := n } }
      { w' with link := { w'.link with writes := n } } :=
    ⟨⟨incoming, by rw [link]⟩, h.turned, h.owned, h.scripted, h.unread⟩
  simp only [Wire.line, here, there]
  cases r with
  | error f => exact ⟨rfl, .inl ⟨_, rfl, rfl, written.imp closed⟩⟩
  | ok =>
    have answered := written.collect carries closed broken
    exact ⟨congrArg (Act.write text shown :: ·) answered.acts, answered.outcome⟩

end Wire

namespace Framer

/-- The answers on two streams with the same tape. -/
theorem batchOnto_alike (done : List Response) (f : Framer) {s s' : Stream} (idle : s'.idle = s.idle)
    (h : tape s'.segments = tape s.segments) : ∃ left,
    batchOnto done f s' =
        ((batchOnto done f s).1, (batchOnto done f s).2.1, { s' with segments := left }) ∧
      tape left = tape (batchOnto done f s).2.2.segments := by
  fun_induction batchOnto done f s generalizing s' with
  | case1 done f s e g t hn =>
    obtain ⟨left, hn', ht⟩ := next_alike f idle h
    rw [hn] at hn' ht
    exact ⟨left, by rw [batchOnto, hn'], ht⟩
  | case2 done f s r g t hn terminal =>
    obtain ⟨left, hn', ht⟩ := next_alike f idle h
    rw [hn] at hn' ht
    exact ⟨left, by rw [batchOnto, hn']; simp [terminal], ht⟩
  | case3 done f s r g t hn open_ ih =>
    obtain ⟨left, hn', ht⟩ := next_alike f idle h
    rw [hn] at hn' ht
    have kept : t.idle = s.idle := by
      have rest : (f.next s).2.2 = t := by rw [hn]
      rw [next_eq, rest_conclude] at rest
      rw [← rest]
    obtain ⟨last, hr, hl⟩ := @ih { s' with segments := left } (idle.trans kept.symm) ht
    refine ⟨last, ?_, hl⟩
    rw [batchOnto, hn']
    simp [open_, hr]

/-- What is unread twice is answered twice in the same way. -/
theorem carries_batch :
    Wire.Carries batch Eq (Wire.Answered (fun a a' => a.1 ++ [a.2] = a'.1 ++ [a'.2]) Eq) := by
  rintro f _ s s' idle same
  obtain ⟨rfl, tapes⟩ := Prod.mk.inj same
  obtain ⟨left, hb, ht⟩ := batchOnto_alike [] f idle tapes.symm
  have read : batch f s' = ((batch f s).1, (batch f s).2.1, { s' with segments := left }) := hb
  have unread : tape left = tape (batch f s).2.2.segments := ht
  rw [read]
  simp only [unread]
  cases (batch f s).1 with
  | error e => exact .inl ⟨e, rfl, rfl, rfl⟩
  | ok a => exact .inr ⟨a, a, rfl, rfl, rfl, rfl, rfl⟩

end Framer

namespace Stand

/-- Two sessions that have come to the same, with such links. -/
structure Beside (k : Nat) (u u' : Upgrade) (T : Unread → Unread → Prop) (x x' : Stand) : Prop where
  wire : x.wire.Beside k u u' T x'.wire
  offers : ∀ name, x'.capabilities.has name = x.capabilities.has name
  phrase : x'.phrase = x.phrase
  phase : x'.phase = x.phase
  tag : x'.tag = x.tag
  acts : x'.acts = x.acts

variable {k : Nat} {u u' : Upgrade} {T E : Unread → Unread → Prop} {x x' : Stand}

theorem Beside.imp (h : x.Beside k u u' T x') (weaker : ∀ p p', T p p' → E p p') :
    x.Beside k u u' E x' := { h with wire := h.wire.imp weaker }

theorem Beside.owned (h : x.Beside k u u' T x') :
    x.wire.link.owner = k ∧ x'.wire.link.owner = k := by
  obtain ⟨incoming, link⟩ := h.wire.link
  exact ⟨h.wire.owned, by rw [link]; exact h.wire.owned⟩

theorem Beside.setPhase (h : x.Beside k u u' T x') (p : Phase) :
    Beside k u u' T { x with phase := p } { x' with phase := p } := { h with phase := rfl }

theorem Beside.did (h : x.Beside k u u' T x') (act : Act) : (x.did act).Beside k u u' T (x'.did act) :=
  { h with acts := congrArg (· ++ [act]) h.acts }

theorem Beside.drew (h : x.Beside k u u' T x') : x.drew.Beside k u u' T x'.drew :=
  { h with tag := congrArg (· + 1) h.tag }

theorem Beside.heard {g g' : Heard} (h : x.Beside k u u' T x') (acts : g'.acts = g.acts)
    (wire : g.wire.Beside k u u' E g'.wire) : (x.heard g).Beside k u u' E (x'.heard g') := by
  refine { h with wire, acts := ?_ }
  simp only [Stand.heard, h.acts, acts]

end Stand

namespace Op

variable {a a' : Account} {k : Nat} {u u' : Upgrade}

/-- The login command is made from the account, and its list of names switched off has no
part in it. -/
theorem paired_loginPhrase {R : Stand → Stand → Prop}
    (accounts : a' = { a with disabled := a'.disabled })
    (phrases : ∀ {x x'}, R x x' → x'.phrase = x.phrase)
    (kept : ∀ {x x'} q, R x x' → R { x with phrase := some q } { x' with phrase := some q }) :
    Paired a a' k R R R loginPhrase loginPhrase := by
  have made : newPhrase = bound >>= fun a => settle a.credentials >>= fun given =>
    settle (phrase given.1 given.2) >>= fun command =>
      (setSession fun s => { s with loginPhrase := some command }) >>= fun _ => pure command := rfl
  have credentials : a'.credentials = a.credentials := by
    rw [accounts]
    rfl
  have built : Paired a a' k R R R newPhrase newPhrase := by
    rw [made]
    apply paired_bound
    rw [credentials]
    apply paired_bind (paired_settle _)
    intro given
    apply paired_bind (paired_settle _)
    intro command
    refine paired_bind (Q := R) ?_ fun _ => paired_pure _
    exact fun x x' h => ⟨.ok (), _, _, kept command h, fun _ _ _ _ => ⟨rfl, rfl⟩⟩
  intro x x' h
  cases hq : x.phrase with
  | some q =>
    have hq' : x'.phrase = some q := (phrases h).trans hq
    refine ⟨.ok q, x, x', h, fun b b' _ _ => ⟨?_, ?_⟩⟩
    · have held : (x.scene b k).session.loginPhrase = some q := hq
      simp only [loginPhrase, held, ending]
    · have held : (x'.scene b' k).session.loginPhrase = some q := hq'
      simp only [loginPhrase, held, ending]
  | none =>
    have hq' : x'.phrase = none := (phrases h).trans hq
    obtain ⟨r, y, y', post, done⟩ := built x x' h
    refine ⟨r, y, y', post, fun b b' account account' => ?_⟩
    obtain ⟨here, there⟩ := done b b' account account'
    have held : (x.scene b k).session.loginPhrase = none := hq
    have held' : (x'.scene b' k).session.loginPhrase = none := hq'
    simp only [loginPhrase, held, held']
    exact ⟨here, there⟩

/-- Sessions with the same to read, on accounts that differ in what is switched off only. -/
theorem stepwise_beside (accounts : a' = { a with disabled := a'.disabled }) :
    Stepwise a a' k (Stand.Beside k u u' Eq) where
  accounts
  owned h := h.owned
  offers h := h.offers
  phase p h := h.setPhase p
  did act h := h.did act
  drew h := ⟨h.tag, h.drew⟩
  line {x x'} text shown h := by
    have answered : Heard.Beside k u u' Eq Eq (x.wire.line text shown) (x'.wire.line text shown) :=
      h.wire.line Framer.carries_batch (fun _ _ same => same) (fun _ => rfl) text shown
    rcases answered.outcome with ⟨e, here, there, wire⟩ | ⟨rs, _, here, there, rfl, wire⟩
    · exact ⟨by rw [here, there], h.heard answered.acts wire⟩
    · exact ⟨by rw [here, there], h.heard answered.acts wire⟩
  phrase := paired_loginPhrase accounts (fun h => h.phrase) fun _ h => { h with phrase := rfl }

end Op

end ImapSession
