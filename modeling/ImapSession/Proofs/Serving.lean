import ImapSession.Proofs.Coupling
import ImapSession.Proofs.Losing

/-!
The same asked of two sessions. Where the two are bound to the same account and have kept
the same login command, a relation that the steps before a login keep is kept by the login
as well, and then by whole openings, by every command and by every other request.
-/
namespace ImapSession

namespace Op

variable {α : Type} {P Q R E : Scene → Scene → Prop} {V : α → α → Prop}
variable {T : String → String → Prop} {B : Nat → Prop}

/-- A relation that is kept by each kind of step that takes no tag, as long as no other texts
are written and the sessions are bound to no other accounts. The two sessions are the same. -/
structure KeptUnopened (W : Vocabulary) (R : Scene → Scene → Prop) (B : Nat → Prop) : Prop
    extends KeptUntagged W R where
  phrase : ∀ {s s'}, R s s' → s'.session.loginPhrase = s.session.loginPhrase
  unbinds : ∀ {s s'}, R s s' → R
    { s with session := { s.session with account := none, loginPhrase := none } }
    { s' with session := { s'.session with account := none, loginPhrase := none } }
  binds : ∀ {s s'} {k : Nat}, R s s' → B k →
    R { s with session := s.session.bind s.world k }
      { s' with session := s'.session.bind s'.world k }

/-- A relation that is kept by each kind of step there is. A login command that the sessions
have kept may be sent. -/
structure KeptThroughout (W : Vocabulary) (R : Scene → Scene → Prop) (T : String → String → Prop)
    (B : Nat → Prop) : Prop extends KeptToLogin W R T, KeptUnopened W R B where
  accounts : ∀ {s s'} {k : Nat}, R s s' → s.session.account = some k →
    s'.world.accounts k = s.world.accounts k
  builds : ∀ {s s'} {command : String}, R s s' → W.commands command true →
    R { s with session := { s.session with loginPhrase := some command } }
      { s' with session := { s'.session with loginPhrase := some command } }
  logs : ∀ {s s'} {q : String}, R s s' → s.session.loginPhrase = some q → W.commands q true

variable {W : Vocabulary}

theorem linked {op : Op α} (h : Coupled R R R V op op)
    (keeps : Keeps (fun s => s.session.link.isSome) op) :
    Coupled (Linked R) (Linked R) (Linked R) V op op :=
  (linked_of h).linked keeps

theorem answered {op : Op α} (h : Coupled R R R V op op) {g : α → Answer}
    (alike : ∀ a a', V a a' → (g a).Alike T (g a')) :
    Coupled R R R (Answer.Alike T) (op >>= fun a => pure (g a)) (op >>= fun a => pure (g a)) :=
  coupled_bind h fun a a' hv => coupled_pure (alike a a' hv)

theorem Answer.alike_map (g : α → Answer) {a a' : α} (h : a = a') : (g a).Alike T (g a') := by
  rw [h]
  exact .same _

/-- What is served to both is answered alike if the operations are. -/
theorem Coupled.serve {r : Request} {s s' : Scene} (made : Coupled R R R (Answer.Alike T) r.op r.op)
    (h : R s s') : (r.serve s).1.Alike T (r.serve s').1 ∧ R (r.serve s).2 (r.serve s').2 := by
  unfold Request.serve
  rcases made.ends h with ⟨a, a', t, t', hr, hr', alike, ht⟩ | ⟨e, t, t', hr, hr', ht⟩
  · simp only [hr, hr']
    exact ⟨alike, ht⟩
  · simp only [hr, hr']
    exact ⟨.same _, ht⟩

namespace KeptUnopened

theorem same (kept : KeptUnopened W R B) {s s' : Scene} (h : R s s') : s'.session = s.session := by
  rw [kept.session h, kept.phrase h]

theorem moves (kept : KeptUnopened W R B) {s s' : Scene} {v : Session} (h : R s s')
    (shifts : s.session.Shifts v) : R { s with session := v } { s' with session := v } := by
  have moved := kept.shifts h shifts
  rw [kept.phrase h, ← shifts.loginPhrase] at moved
  exact moved

theorem hangUp (kept : KeptUnopened W R B) : Coupled R R E Eq Op.hangUp Op.hangUp := by
  intro s s' hs
  have same := kept.link hs
  cases hl : s.session.link with
  | none =>
    rw [hl] at same
    simp only [Op.hangUp, hl, same]
    exact ⟨rfl, hs⟩
  | some l =>
    have down := kept.moves (v := { s.session with link := none }) hs
      ⟨rfl, rfl, rfl, by simp⟩
    simp only [Op.hangUp, hl, kept.same hs]
    exact ⟨rfl, kept.records l.owner .close down rfl⟩

theorem release (kept : KeptUnopened W R B) : Coupled R R E Eq Op.release Op.release := by
  apply coupled_bind kept.hangUp
  intro _ _ _ s s' hs
  rw [Op.setSession, Op.setSession, kept.same hs]
  exact ⟨rfl, kept.moves hs (.of_link rfl rfl rfl rfl)⟩

theorem close (kept : KeptUnopened W R B) : Coupled R R E Eq Op.close Op.close := by
  apply coupled_bind kept.release
  intro _ _ _ s s' hs
  have unbound := kept.unbinds hs
  have same := kept.same hs
  rw [Op.setSession, Op.setSession, same]
  rw [same] at unbound
  have closed := kept.moves
    (v := { s.session with account := none, loginPhrase := none, capabilities := .empty })
    unbound (.of_link rfl rfl rfl rfl)
  exact ⟨rfl, closed⟩

/-- What opens nothing is answered alike, and leaves the two related. -/
theorem request (kept : KeptUnopened W R B) {r : Request} (opens : r.opens = false)
    (said : W.Asks r) (within : ∀ k, r = .bind k → B k) :
    Coupled R R R (Answer.Alike T) r.op r.op := by
  cases r with
  | connect => cases opens
  | send => cases opens
  | execute => cases opens
  | close => exact answered kept.close fun _ _ => Answer.alike_map fun _ => .done
  | discard => exact answered kept.discard fun _ _ => Answer.alike_map fun _ => .done
  | bind k =>
    intro s s' hs
    exact ⟨.same .done, kept.binds hs (within k rfl)⟩
  | resume payload sensitive =>
    exact answered (kept.resume said) fun _ _ => Answer.alike_map .responses
  | collect => exact answered kept.collect fun _ _ => Answer.alike_map .responses
  | read => exact answered (kept.reading _) fun _ _ => Answer.alike_map .response

end KeptUnopened

namespace KeptThroughout

theorem bound (kept : KeptThroughout W R T B) : Coupled R R R Eq Op.bound Op.bound := by
  intro s s' hs
  have same := kept.account hs
  rw [bound_eq, bound_eq, same]
  cases hk : s.session.account with
  | none => exact ⟨rfl, hs⟩
  | some k => exact ⟨(kept.accounts hs hk).symm, hs⟩

theorem newPhrase (kept : KeptThroughout W R T B) :
    Coupled R R R (fun q q' => q = q' ∧ W.commands q true) Op.newPhrase Op.newPhrase := by
  apply coupled_bind kept.bound
  rintro a _ rfl
  apply coupled_bind (coupled_settle fun _ _ => rfl)
  rintro ⟨username, password⟩ _ rfl
  apply coupled_bind (V := fun q q' => q = q' ∧ W.commands q true)
    (coupled_settle fun q built => ⟨rfl, kept.opens.login built⟩)
  rintro command _ ⟨rfl, said⟩
  refine coupled_bind (V := Eq) (fun s s' hs => ⟨rfl, kept.builds hs said⟩) ?_
  exact fun _ _ _ => coupled_pure ⟨rfl, said⟩

theorem loginPhrase (kept : KeptThroughout W R T B) :
    Coupled R R R (fun q q' => q = q' ∧ W.commands q true) Op.loginPhrase Op.loginPhrase := by
  intro s s' hs
  have same := kept.phrase hs
  cases hq : s.session.loginPhrase with
  | some q =>
    rw [hq] at same
    simp only [Op.loginPhrase, hq, same]
    exact ⟨⟨rfl, kept.logs hs hq⟩, hs⟩
  | none =>
    rw [hq] at same
    simp only [Op.loginPhrase, hq, same]
    exact kept.newPhrase s s' hs

theorem plainLogin (kept : KeptThroughout W R T B) :
    Coupled (Linked R) (Linked R) (Linked R) Eq Op.plainLogin Op.plainLogin := by
  apply coupled_bind (linked kept.loginPhrase (keeps_loginPhrase lasting_linked.toRobust))
  rintro command _ ⟨rfl, said⟩
  apply coupled_bind (kept.run said)
  exact fun _ _ _ => coupled_pure rfl

theorem confirming (kept : KeptThroughout W R T B) :
    Coupled (Linked R) (Linked R) (Linked R) Eq Op.confirming Op.confirming := by
  apply coupled_bind (linked (kept.resume kept.opens.finish)
    (keeps_resume lasting_linked.toSteady _ _))
  rintro rs _ rfl
  exact coupled_ite (coupled_pure rfl) (coupled_throw _)

theorem proving (kept : KeptThroughout W R T B) (x : Exchange) :
    Coupled (Linked R) (Linked R) (Linked R) Eq (Op.proving x) (Op.proving x) := by
  apply coupled_bind (linked (kept.resume (kept.opens.answer x))
    (keeps_resume lasting_linked.toSteady _ _))
  rintro rs _ rfl
  exact coupled_bind (coupled_settle fun _ _ => rfl) fun _ _ _ => kept.confirming

theorem exchanging (kept : KeptThroughout W R T B) (a : Account) (given : String × String) :
    Coupled (Linked R) (Linked R) (Linked R) Eq (Op.exchanging a given)
      (Op.exchanging a given) := by
  apply coupled_demand (fun s s' hs => kept.account hs.1) (fun _ _ hs => hs)
  intro k
  refine coupled_bind (V := Eq) (Q := Linked R) (fun s s' hs => ⟨rfl, ?_, hs.1.2⟩) ?_
  · exact kept.records k .nonce hs.1.1 rfl
  intro _ _ _
  apply coupled_bind (kept.run kept.opens.authenticate)
  rintro rs _ rfl
  apply coupled_bind (coupled_settle fun _ _ => rfl)
  rintro x _ rfl
  exact kept.proving x

theorem digestLogin (kept : KeptThroughout W R T B) :
    Coupled (Linked R) (Linked R) (Linked R) Eq Op.digestLogin Op.digestLogin := by
  rw [digestLogin_eq]
  apply coupled_bind (linked kept.bound keeps_bound)
  rintro a _ rfl
  apply coupled_bind (coupled_settle fun _ _ => rfl)
  rintro given _ rfl
  exact kept.exchanging a given

theorem authenticate (kept : KeptThroughout W R T B) :
    Coupled (Linked R) (Linked R) R Eq Op.authenticate Op.authenticate := by
  rw [authenticate_judge]
  apply coupled_session
  intro s s' hs
  rw [kept.same hs.1]
  have login := coupled_ite (c := s.session.capabilities.has digestOffer)
    kept.digestLogin kept.plainLogin
  have good : ∀ a, Coupled (Linked R) (Linked R) R Eq (judge (.ok a)) (judge (.ok a)) :=
    fun _ => coupled_pure rfl
  have bad : ∀ e, Coupled (Linked R) (Linked R) R Eq (judge (.error e)) (judge (.error e)) :=
    fun e => (kept.judge_error e).pre fun _ _ hs => hs.1
  exact coupled_attempt login good bad s s' hs

theorem establish (kept : KeptThroughout W R T B) :
    Coupled R (Linked R) R Eq Op.establish Op.establish := by
  rw [establish_prepare]
  exact coupled_bind kept.prepare fun _ _ _ => kept.authenticate

/-- An attempt that ends well leaves a link. -/
theorem attemptOpening (kept : KeptThroughout W R T B) :
    Coupled R (Linked R) R Eq Op.attemptOpening Op.attemptOpening := by
  rw [attemptOpening_eq]
  refine coupled_attempt kept.establish (fun _ => ?_) fun e => kept.conclude_error e
  exact (linked kept.conclude_ok (keeps_conclude lasting_linked.toRobust _)).post
    (fun _ _ hs => hs) fun _ _ hs => hs.1

/-- Opening a session that is ready does nothing; otherwise it is an attempt. -/
theorem connect (kept : KeptThroughout W R T B) :
    Coupled R (Linked R) R Eq Op.connect Op.connect := by
  have opening : Coupled R (Linked R) R Eq
      (do let _ ← Op.account; Op.attemptOpening) (do let _ ← Op.account; Op.attemptOpening) := by
    apply coupled_demand (fun s s' hs => kept.account hs) (fun _ _ hs => hs)
    intro k
    exact kept.attemptOpening.pre fun _ _ hs => hs.1
  apply coupled_session
  intro s s' hs
  rw [kept.same hs]
  by_cases ready : isReady s.session = true
  · rw [if_pos ready]
    have linked : s.session.link.isSome := by
      cases hl : s.session.link with
      | none => simp [isReady, Session.isOpen, hl] at ready
      | some l => rfl
    exact ⟨rfl, hs, linked⟩
  · rw [if_neg ready]
    refine coupled_session (P := R) ?_ s s' hs
    intro s s' hs
    rw [kept.same hs]
    by_cases linked : s.session.link.isSome = true
    · rw [if_pos linked]
      exact coupled_bind kept.release (fun _ _ _ => opening) s s' hs
    · rw [if_neg linked]
      exact opening s s' hs

theorem send (kept : KeptThroughout W R T B) {command : String} {sensitive : Bool}
    (said : W.commands command sensitive) :
    Coupled R R R T (Op.send command sensitive) (Op.send command sensitive) :=
  coupled_bind kept.connect fun _ _ _ => kept.sends said

theorem execute (kept : KeptThroughout W R T B) {command : String} {sensitive : Bool}
    (said : W.commands command sensitive) :
    Coupled R R R Eq (Op.execute command sensitive) (Op.execute command sensitive) :=
  coupled_bind (kept.send said) fun _ _ _ => kept.collect

/-- What is asked of both is answered alike, and leaves them related. -/
theorem request (kept : KeptThroughout W R T B) {r : Request} (said : W.Asks r)
    (within : ∀ k, r = .bind k → B k) : Coupled R R R (Answer.Alike T) r.op r.op := by
  cases hr : r with
  | connect =>
    exact answered (kept.connect.post (fun _ _ hs => hs.1) fun _ _ hs => hs)
      fun _ _ => Answer.alike_map fun _ => .done
  | send command sensitive =>
    subst hr
    exact answered (kept.send said) fun _ _ together => .tags together
  | execute command sensitive =>
    subst hr
    exact answered (kept.execute said) fun _ _ => Answer.alike_map .responses
  | _ =>
    subst hr
    exact kept.toKeptUnopened.request rfl said within

end KeptThroughout

end Op

end ImapSession
