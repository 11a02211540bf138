import ImapSession.Proofs.Connecting
import ImapSession.Server
import ImapSession.Session.Request

/-!
The scenes a session can come to: from being bound, by anything that is asked of
it, by its link going down from outside, and by whatever other sessions do to the
world, as long as the accounts stay what they are. In all of them the parts of the
session fit together. An opening has phases that fit nothing, so it is followed by
what holds all through it, and the phase it ends in makes the rest fit again.
-/
namespace ImapSession

/-- A scene that a session can come to. -/
inductive Reached : Scene → Prop
  | bound (w : World) (k : Nat) : Reached ⟨.bound w k, w⟩
  | served {s : Scene} (before : Reached s) (r : Request) : Reached (r.serve s).2
  | severed {s : Scene} (before : Reached s) : Reached { s with session := s.session.sever }
  | elsewhere {s : Scene} (before : Reached s) (w : World)
      (same : w.accounts = s.world.accounts) : Reached { s with world := w }

/-- The parts of a session fit together. Link and framer are there both or not at
all, no phase of an opening is left, a ready session has a link and an account, and
an unbound one has nothing. -/
structure Standing (s : Scene) : Prop where
  paired : s.session.framer.isSome = s.session.link.isSome
  settled : s.session.phase = .closed ∨ s.session.phase = .ready ∨ s.session.phase = .failed
  closed : s.session.phase = .closed → s.session.link = none
  ready : s.session.phase = .ready → s.session.link.isSome ∧ s.session.account.isSome
  unbound : s.session.account = none → s.session.phase = .closed ∧ s.session.link = none ∧
    s.session.framer = none ∧ s.session.loginPhrase = none ∧ s.session.capabilities = .empty
  phrase : Opening.PhraseKept s
  counter : ∀ k, s.session.account = some k → s.session.counter = (s.world.accounts k).counter

structure Bound (k : Nat) (s : Scene) : Prop where
  account : s.session.account = some k
  paired : s.session.framer.isSome = s.session.link.isSome
  phrase : Opening.PhraseKept s
  counter : s.session.counter = (s.world.accounts k).counter

/-- A bound session in the course of an opening, once its link is up. -/
structure Underway (k : Nat) (s : Scene) : Prop extends Bound k s where
  linked : s.session.link.isSome

theorem Standing.bound {s : Scene} {k : Nat} (h : Standing s) (account : s.session.account = some k) :
    Bound k s :=
  ⟨account, h.paired, h.phrase, h.counter k account⟩

theorem Bound.standing {s : Scene} {k : Nat} (h : Bound k s)
    (phase : s.session.phase = .failed ∨ s.session.phase = .ready ∧ s.session.link.isSome) :
    Standing s where
  paired := h.paired
  settled := by
    rcases phase with failed | ⟨ready, -⟩
    · exact .inr (.inr failed)
    · exact .inr (.inl ready)
  closed closed := by
    rcases phase with failed | ⟨ready, -⟩
    · simp [failed] at closed
    · simp [ready] at closed
  ready ready := by
    rcases phase with failed | ⟨-, linked⟩
    · simp [failed] at ready
    · exact ⟨linked, by simp [h.account]⟩
  unbound unbound := by simp [h.account] at unbound
  phrase := h.phrase
  counter j hj := by
    obtain rfl : k = j := Option.some.inj (h.account.symm.trans hj)
    exact h.counter

namespace Op

open Opening

variable {s : Scene} {k : Nat}

/-- What the login command does not depend on does not spoil it. -/
theorem phraseKept_of_same {s s' : Scene} (kept : PhraseKept s)
    (account : s'.session.account = s.session.account)
    (phrase : s'.session.loginPhrase = s.session.loginPhrase)
    (accounts : s'.world.accounts = s.world.accounts) : PhraseKept s' := by
  intro k q hk hq
  rw [accounts]
  exact kept k q (account ▸ hk) (phrase ▸ hq)

/-- A login command that was built from the bound account is the one it gives. -/
theorem phraseKept_built {username password q : String} (bound : s.session.account = some k)
    (given : (s.world.accounts k).credentials = .ok (username, password))
    (built : phrase username password = .ok q) :
    PhraseKept { s with session := { s.session with loginPhrase := some q } } := by
  intro j q' hj hq
  obtain rfl : k = j := Option.some.inj (bound.symm.trans hj)
  obtain rfl : q = q' := Option.some.inj hq
  change (s.world.accounts k).phrase = .ok q
  rw [Account.phrase, given]
  exact built

/-- Nothing of an opening but its last step changes what holds all through it. -/
theorem lasting_underway (k : Nat) : Lasting (Underway k) where
  reads _ h _ _ _ := ⟨⟨h.account, rfl, h.phrase, h.counter⟩, rfl⟩
  writes h hl _ := ⟨⟨h.account, h.paired.trans (by simp [hl]), h.phrase, h.counter⟩, rfl⟩
  forgets h := ⟨⟨h.account, by simpa using h.paired, h.phrase, h.counter⟩, h.linked⟩
  draws h := ⟨⟨h.account, h.paired, h.phrase, h.counter⟩, h.linked⟩
  wrote _ _ _ h := ⟨⟨h.account, h.paired, h.phrase, h.counter⟩, h.linked⟩
  reported _ _ h := ⟨⟨h.account, h.paired, h.phrase, h.counter⟩, h.linked⟩
  phases _ h := ⟨⟨h.account, h.paired, h.phrase, h.counter⟩, h.linked⟩
  learns _ h := ⟨⟨h.account, h.paired, h.phrase, h.counter⟩, h.linked⟩
  builds h hk given built := ⟨⟨h.account, h.paired, phraseKept_built hk given built, h.counter⟩, h.linked⟩
  nonce _ h := ⟨⟨h.account, h.paired, h.phrase, h.counter⟩, h.linked⟩
  asks _ h := ⟨⟨h.account, h.paired, h.phrase, h.counter⟩, h.linked⟩
  secures h hl := ⟨⟨h.account, h.paired.trans (by simp [hl]), h.phrase, h.counter⟩, rfl⟩
  renews h := ⟨⟨h.account, by simp [h.linked], h.phrase, h.counter⟩, h.linked⟩

/-- Commands leave the parts of a session as they fit together. -/
theorem steady_standing : Steady Standing where
  reads _ h hl hf _ := { h with
    paired := rfl
    closed := fun closed => by simp [h.closed closed] at hl
    ready := fun ready => ⟨rfl, (h.ready ready).2⟩
    unbound := fun unbound => by simp [(h.unbound unbound).2.1] at hl }
  writes h hl _ := { h with
    paired := h.paired.trans (by simp [hl])
    closed := fun closed => by simp [h.closed closed] at hl
    ready := fun ready => ⟨rfl, (h.ready ready).2⟩
    unbound := fun unbound => by simp [(h.unbound unbound).2.1] at hl }
  forgets h := { h with
    paired := by simpa using h.paired
    unbound := fun unbound => by simpa using h.unbound unbound }
  draws h := { h with }
  wrote _ _ _ h := { h with }
  reported _ _ h := { h with }

/-- Taking down an old link leaves what holds of a bound session. -/
theorem bound_cleared (h : Bound k s) : Bound k (cleared s) where
  account := by simpa using h.account
  paired := by
    unfold cleared
    dsimp only
    split
    · rfl
    · exact h.paired
  phrase := h.phrase.cleared
  counter := by simpa using h.counter

/-- An attempt to dial leaves a session without a link as it was, or gives it one. -/
theorem dial_bound (h : Bound k s) :
    Ends dial s (fun _ => Underway k) (fun _ => Bound k) := by
  have counter : s.session.counter = ((s.world.dial k).2.accounts k).counter := by
    simpa using h.counter
  rw [Ends, dial_scene h.account]
  cases (s.world.dial k).1.openFault with
  | some f =>
    exact ⟨h.account, h.paired, phraseKept_of_same h.phrase rfl rfl (accounts_dial ..), counter⟩
  | none =>
    exact ⟨⟨rfl, rfl, phraseKept_of_same h.phrase h.account.symm rfl (accounts_dial ..), counter⟩,
      rfl⟩

theorem establish_bound (h : Bound k s) :
    Ends establish s (fun _ => Underway k) (fun _ => Bound k) := by
  have connecting : Bound k { s with session := { s.session with phase := .connecting } } :=
    ⟨h.account, h.paired, h.phrase, h.counter⟩
  rw [establish_eq]
  refine ends_bind.2 ((dial_bound connecting).bind ?_)
  intro _ t underway
  exact (keeps_converse (lasting_underway k) t underway).imp_error fun _ _ bad => bad.toBound

def Blank (s : Scene) : Prop := ∀ f, s.session.framer = some f → f.isHolding = false

theorem blank_discarded {f : Option Framer} {g : Framer} (h : (f.map fun _ => Framer.empty) = some g) :
    g.isHolding = false := by
  cases f with
  | none => cases h
  | some f =>
    obtain rfl : Framer.empty = g := Option.some.inj h
    rfl

/-- However an attempt ends, its parts fit and nothing is left half read. -/
theorem attemptOpening_standing (h : Bound k s) :
    Ends attemptOpening s (fun _ t => Standing t ∧ Blank t) (fun _ t => Standing t ∧ Blank t) := by
  rw [attemptOpening_eq]
  refine ends_bind.2 (ends_attempt.2 ((establish_bound h).imp ?_ ?_))
  · intro _ t underway
    rw [Ends, conclude_ok]
    have paired := underway.paired
    have ready : Bound k { t with session := { t.session with
        framer := t.session.framer.map fun _ => .empty, phase := .ready } } :=
      ⟨underway.account, by simpa using paired, underway.phrase, underway.counter⟩
    exact ⟨ready.standing (.inr ⟨rfl, underway.linked⟩), fun _ => blank_discarded⟩
  · intro e t bound
    rw [Ends, conclude_error, bound.account]
    have paired := bound.paired
    have failed : ∀ w : World, w.accounts = t.world.accounts → Bound k ⟨{ t.session with
        framer := t.session.framer.map fun _ => .empty, phase := .failed }, w⟩ := by
      intro w same
      exact ⟨bound.account, by simpa using paired, phraseKept_of_same bound.phrase rfl rfl same,
        same ▸ bound.counter⟩
    cases e.lateReport? with
    | none => exact ⟨(failed t.world rfl).standing (.inl rfl), fun _ => blank_discarded⟩
    | some health =>
      exact ⟨(failed (t.world.record k (.report health)) rfl).standing (.inl rfl),
        fun _ => blank_discarded⟩

/-- Opening a session that is bound and not ready is an attempt, made without a link. -/
theorem connect_standing (h : Bound k s) (idle : isReady s.session = false) :
    Ends connect s (fun _ t => Standing t ∧ Blank t) (fun _ t => Standing t ∧ Blank t) := by
  rw [Ends, connect_eq h.account idle]
  exact attemptOpening_standing (bound_cleared h)

/-- A session that is ready, or bound to no account, is left as it is. -/
theorem keeps_connect : Keeps Standing connect := by
  intro s h
  have hs : session s = .ok s.session s := rfl
  by_cases ready : isReady s.session = true
  · rw [connect, ends_bind_ok hs, if_pos ready]
    exact h
  · cases hk : s.session.account with
    | none =>
      have hl : s.session.link = none := (h.unbound hk).2.1
      have ha : Op.account s = .error .unbound s := by simp [Op.account, demand, hk]
      rw [connect, ends_bind_ok hs, if_neg ready, ends_bind_ok hs, hl, Option.isSome_none,
        if_neg (by simp), ends_bind_error ha]
      exact h
    | some k =>
      refine (connect_standing (h.bound hk) (by simpa using ready)).imp ?_ ?_
      · intro _ _ good
        exact good.1
      · intro _ _ bad
        exact bad.1

theorem keeps_send (command : String) (sensitive : Bool) : Keeps Standing (send command sensitive) :=
  keeps_bind keeps_connect fun _ => keeps_sendTagged steady_standing _ _

theorem keeps_execute (command : String) (sensitive : Bool) :
    Keeps Standing (execute command sensitive) :=
  keeps_bind (keeps_send _ _) fun _ => keeps_collect steady_standing

/-- A session that is closed has nothing left, and no account either. -/
theorem keeps_close : Keeps Standing close := by
  intro s h
  rw [close, ends_bind_ok (release_eq s)]
  exact ⟨rfl, .inl rfl, fun _ => rfl, nofun, fun _ => ⟨rfl, rfl, rfl, rfl, rfl⟩, nofun, nofun⟩

/-- A session that is bound anew keeps its link, and begins without a login command. -/
theorem keeps_bind_account (j : Nat) : Keeps Standing (Request.bind j).op := by
  intro s h
  exact ⟨h.paired, h.settled, h.closed, fun ready => ⟨(h.ready ready).1, rfl⟩, nofun, nofun,
    fun i hi => by rw [← Option.some.inj hi]; rfl⟩

theorem keeps_request (r : Request) : Keeps Standing r.op := by
  cases r with
  | connect => exact keeps_bind keeps_connect fun _ => keeps_pure _
  | close => exact keeps_bind keeps_close fun _ => keeps_pure _
  | discard => exact keeps_bind (keeps_discard steady_standing) fun _ => keeps_pure _
  | bind j => exact keeps_bind_account j
  | send command sensitive => exact keeps_bind (keeps_send _ _) fun _ => keeps_pure _
  | execute command sensitive => exact keeps_bind (keeps_execute _ _) fun _ => keeps_pure _
  | resume payload sensitive =>
    exact keeps_bind (keeps_resume steady_standing _ _) fun _ => keeps_pure _
  | collect => exact keeps_bind (keeps_collect steady_standing) fun _ => keeps_pure _
  | read => exact keeps_bind (keeps_reading steady_standing _) fun _ => keeps_pure _

end Op

/-- What a request keeps holds after it was served, whatever the answer. -/
theorem Request.serve_keeps {I : Scene → Prop} {r : Request} (kept : Op.Keeps I r.op) {s : Scene}
    (h : I s) : I (r.serve s).2 := by
  have ended := kept s h
  unfold Op.Ends at ended
  unfold Request.serve
  cases hr : r.op s with
  | ok a t => simpa only [hr] using ended
  | error e t => simpa only [hr] using ended

/-- A request that is answered with a failure ended in it. -/
theorem Request.op_of_failure {r : Request} {s t : Scene} {e : Failure}
    (failed : r.serve s = (.failure e, t)) : r.op s = .error e t := by
  have plain : ∀ {α : Type} (op : Op α) (g : α → Answer), (∀ a, g a ≠ .failure e) →
      Op.Ends (op >>= fun a => pure (g a)) s (fun b _ => b ≠ .failure e) fun _ _ => True := by
    intro α op g proper
    rw [Op.ends_bind, Op.Ends]
    cases op s with
    | ok a u => exact proper a
    | error e' u => trivial
  have answer : Op.Ends r.op s (fun b _ => b ≠ .failure e) fun _ _ => True := by
    cases r with
    | bind j => exact nofun
    | _ => exact plain _ _ nofun
  unfold Request.serve at failed
  cases hr : r.op s with
  | ok b u =>
    rw [hr] at failed
    cases failed
    exact absurd rfl (answer.of_ok hr)
  | error e' u =>
    rw [hr] at failed
    cases failed
    rfl

/-- In every scene that can be reached, the parts of the session fit together. -/
theorem Reached.standing {s : Scene} (h : Reached s) : Standing s := by
  induction h with
  | bound w k =>
    exact ⟨rfl, .inl rfl, fun _ => rfl, nofun, nofun, nofun,
      fun j hj => by rw [← Option.some.inj hj]; rfl⟩
  | served before r ih => exact Request.serve_keeps (Op.keeps_request r) ih
  | @severed s before ih =>
    exact { ih with
      paired := by simpa [Session.sever] using ih.paired
      closed := fun closed => by simp [Session.sever, ih.closed closed]
      ready := fun ready => by simpa [Session.sever] using ih.ready ready
      unbound := fun unbound => by simpa [Session.sever] using ih.unbound unbound }
  | elsewhere before w same ih =>
    exact { ih with
      phrase := Op.phraseKept_of_same ih.phrase rfl rfl same
      counter := fun k hk => same ▸ ih.counter k hk }

/-- In every scene that can be reached, a kept login command is that of the account. -/
theorem Reached.phraseKept {s : Scene} (h : Reached s) : Opening.PhraseKept s := h.standing.phrase

namespace Opening

/-- Whatever was asked of a session, its parts fit together; and an attempt to open it,
if one is made, leaves nothing half read, whether it succeeds or not. -/
theorem reached_standing {s : Scene} (reached : Reached s) : Standing s ∧
    ∀ k, s.session.account = some k → Op.isReady s.session = false →
      Op.Ends Op.connect s (fun _ => Op.Blank) (fun _ => Op.Blank) := by
  have fits := reached.standing
  refine ⟨fits, fun k bound idle => ?_⟩
  exact (Op.connect_standing (fits.bound bound) idle).imp (fun _ _ good => good.2)
    fun _ _ bad => bad.2

/-- A world with one server, which says this and nothing else. -/
def sampleWorld (said : String) : World where
  accounts := fun _ => ⟨some "user", some "secret", "host", [], "nonce", 0⟩
  supplies := fun _ => Server.supply [⟨Utf8.encode said, [], false⟩]
  tags := World.noTags
  log := []

def sampleScene (said : String) : Scene := ⟨.bound (sampleWorld said) 0, sampleWorld said⟩

/-- A session that has failed on a server which greets and says no more. -/
theorem reached_standing_failed :
    let s := (Request.serve .connect (sampleScene "* OK hello\r\n* CAP")).2
    s.session.phase = .failed ∧ s.session.link.isSome ∧ Standing s ∧
      Op.Ends Op.connect s (fun _ => Op.Blank) (fun _ => Op.Blank) := by
  intro s
  have facts : s.session.phase = .failed ∧ s.session.link.isSome ∧
      s.session.account = some 0 := by decide +kernel
  obtain ⟨failed, linked, account⟩ := facts
  have reached : Reached s := .served (.bound (sampleWorld "* OK hello\r\n* CAP") 0) .connect
  obtain ⟨fits, blank⟩ := reached_standing reached
  exact ⟨failed, linked, fits, blank 0 account (by simp [Op.isReady, failed])⟩

end Opening

end ImapSession
