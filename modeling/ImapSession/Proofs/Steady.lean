import ImapSession.Proofs.Outcomes
import ImapSession.Proofs.Wire

/-!
What operations can do to a scene. All of them are put together from a few kinds
of change: something goes over the link, a tag is drawn, something is recorded, and
in the course of an opening the session comes further. What survives each kind of
change is kept by every operation made of them, however it ends.
-/
namespace ImapSession

/-- What is reported of a failure at the end of an attempt, and not where it came up. -/
def Failure.lateReport? (e : Failure) : Option Health :=
  if e.isOfLink then e.health? else none

namespace Op

variable {α : Type} {I : Scene → Prop}

/-- This survives commands: lines that are read and written, tags, and reports. -/
structure Steady (I : Scene → Prop) : Prop where
  reads : ∀ {s : Scene} {l l' : Link} {f : Framer} (f' : Framer), I s → s.session.link = some l →
    s.session.framer = some f → l.Used l' →
    I { s with session := { s.session with framer := some f', link := some l' } }
  writes : ∀ {s : Scene} {l l' : Link}, I s → s.session.link = some l → l.Used l' →
    I { s with session := { s.session with link := some l' } }
  forgets : ∀ {s : Scene}, I s →
    I { s with session := { s.session with framer := s.session.framer.map fun _ => .empty } }
  draws : ∀ {s : Scene}, I s →
    I { s with world := { s.world with tags := (s.world.tags.draw s.session.counter).2 } }
  wrote : ∀ {s : Scene} (k : Nat) (line shown : String), I s →
    I { s with world := s.world.record k (.write line shown) }
  reported : ∀ {s : Scene} (k : Nat) (h : Health), I s →
    I { s with world := s.world.record k (.report h) }

/-- This survives a login and what comes before it, encryption apart. -/
structure Robust (I : Scene → Prop) : Prop extends Steady I where
  phases : ∀ {s : Scene} (p : Phase), I s → I { s with session := { s.session with phase := p } }
  learns : ∀ {s : Scene} (c : Capabilities), I s →
    I { s with session := { s.session with capabilities := c } }
  builds : ∀ {s : Scene} {k : Nat} {username password q : String}, I s →
    s.session.account = some k → (s.world.accounts k).credentials = .ok (username, password) →
    phrase username password = .ok q →
    I { s with session := { s.session with loginPhrase := some q } }
  nonce : ∀ {s : Scene} (k : Nat), I s → I { s with world := s.world.record k .nonce }

/-- This survives everything that is done once the link is up. -/
structure Lasting (I : Scene → Prop) : Prop extends Robust I where
  asks : ∀ {s : Scene} (k : Nat), I s → I { s with world := s.world.record k .secure }
  secures : ∀ {s : Scene} {l : Link}, I s → s.session.link = some l →
    I { s with session := { s.session with link := some l.secure.2 } }
  renews : ∀ {s : Scene}, I s → I { s with session := { s.session with framer := some .empty } }

theorem keeps_reading (steady : Steady I)
    (g : Framer → Stream → Except Failure α × Framer × Stream) : Keeps I (reading g) := by
  intro s h
  cases hf : s.session.framer with
  | none =>
    have ha : framer s = .error .lost s := demand_none hf
    rw [reading, ends_bind_error ha]
    exact h
  | some f =>
    have ha : framer s = .ok f s := demand_some hf
    cases hl : s.session.link with
    | none =>
      have hb : link s = .error .lost s := demand_none hl
      rw [reading, ends_bind_ok ha, ends_bind_error hb]
      exact h
    | some l =>
      have hb : link s = .ok l s := demand_some hl
      rw [reading, ends_bind_ok ha, ends_bind_ok hb]
      by_cases open? : l.isOpen = true
      · rw [if_pos open?]
        refine ends_bind.2 (ends_settle.2 ?_)
        have used : l.Used { l with incoming := (g f l.stream).2.2.segments } := ⟨_, _, _, rfl⟩
        have read := steady.reads (g f l.stream).2.1 h hl hf used
        exact ⟨fun _ _ => read, fun _ _ => read⟩
      · rw [if_neg open?]
        exact h

theorem keeps_write (steady : Steady I) (line shown : String) : Keeps I (write line shown) := by
  intro s h
  cases hl : s.session.link with
  | none =>
    have hb : link s = .error .lost s := demand_none hl
    rw [write, ends_bind_error hb]
    exact h
  | some l =>
    have hb : link s = .ok l s := demand_some hl
    rw [write, ends_bind_ok hb]
    have written := steady.writes h hl (l.used_write line)
    refine ends_bind.2 (ends_bind.2 (ends_settle.2 ⟨fun _ _ => ?_, fun _ _ => written⟩))
    exact steady.wrote _ line shown written

theorem keeps_sendTagged (steady : Steady I) (command : String) (sensitive : Bool) :
    Keeps I (sendTagged command sensitive) := by
  intro s h
  have drawn := steady.draws h
  refine ends_bind.2 (ends_bind.2 (ends_bind.2 ?_))
  exact keeps_bind (keeps_write steady _ _) (fun _ => keeps_pure _) _ drawn

theorem keeps_discard (steady : Steady I) : Keeps I discard := fun _ h => steady.forgets h

theorem keeps_report (steady : Steady I) (health : Health) : Keeps I (report health) := by
  intro s h
  cases hk : s.session.account with
  | none =>
    have hr : report health s = .ok () s := by simp only [report, hk]
    rw [Ends, hr]
    exact h
  | some k =>
    have hr : report health s = record k (.report health) s := by simp only [report, hk]
    rw [Ends, hr]
    exact steady.reported k health h

theorem keeps_collect (steady : Steady I) : Keeps I collect := by
  apply keeps_bind (keeps_reading steady _)
  intro answer
  apply keeps_ite (keeps_pure _)
  apply keeps_bind (keeps_discard steady)
  intro _
  apply keeps_bind (keeps_report steady _)
  intro _
  exact keeps_ite (keeps_throw _) (keeps_throw _)

theorem keeps_run (steady : Steady I) (command : String) (sensitive : Bool) :
    Keeps I (run command sensitive) :=
  keeps_bind (keeps_sendTagged steady _ _) fun _ => keeps_collect steady

theorem keeps_resume (steady : Steady I) (payload : String) (sensitive : Bool) :
    Keeps I (resume payload sensitive) :=
  keeps_bind (keeps_write steady _ _) fun _ => keeps_collect steady

theorem keeps_setPhase (robust : Robust I) (p : Phase) : Keeps I (setPhase p) :=
  fun _ h => robust.phases p h

theorem keeps_greet (robust : Robust I) : Keeps I greet := by
  apply keeps_bind (keeps_reading robust.toSteady _)
  intro r
  apply keeps_ite (keeps_setPhase robust _)
  exact keeps_bind (keeps_report robust.toSteady _) fun _ => keeps_throw _

theorem keeps_bound : Keeps I Op.bound :=
  keeps_bind keeps_world fun _ => keeps_bind (keeps_demand _ _) fun _ => keeps_pure _

theorem keeps_discover (robust : Robust I) : Keeps I discover := by
  apply keeps_bind (keeps_run robust.toSteady _ _)
  intro rs
  apply keeps_bind keeps_bound
  intro a s h
  exact robust.phases .capabilitiesKnown (robust.learns (.ofResponses rs a.disabled) h)

theorem bound_eq (s : Scene) : Op.bound s =
    match s.session.account with
    | some k => .ok (s.world.accounts k) s
    | none => .error .unbound s := by
  cases hk : s.session.account with
  | none => simp [Op.bound, Op.account, world, demand, hk, bind, EStateM.bind]
  | some k => simp [Op.bound, Op.account, world, demand, hk, bind, EStateM.bind, pure, EStateM.pure]

theorem keeps_newPhrase (robust : Robust I) : Keeps I newPhrase := by
  intro s h
  have hb := bound_eq s
  cases hk : s.session.account with
  | none =>
    rw [hk] at hb
    rw [newPhrase, ends_bind_error hb]
    exact h
  | some k =>
    rw [hk] at hb
    rw [newPhrase, ends_bind_ok hb]
    refine ends_bind.2 (ends_settle.2 ⟨fun given hg => ?_, fun _ _ => h⟩)
    refine ends_bind.2 (ends_settle.2 ⟨fun command hc => ?_, fun _ _ => h⟩)
    exact robust.builds h hk hg hc

theorem keeps_loginPhrase (robust : Robust I) : Keeps I loginPhrase := by
  intro s h
  cases hq : s.session.loginPhrase with
  | some q =>
    have hl : loginPhrase s = .ok q s := by simp only [loginPhrase, hq]
    rw [Ends, hl]
    exact h
  | none =>
    have hl : loginPhrase s = newPhrase s := by simp only [loginPhrase, hq]
    rw [Ends, hl]
    exact keeps_newPhrase robust s h

theorem keeps_plainLogin (robust : Robust I) : Keeps I plainLogin := by
  apply keeps_bind (keeps_loginPhrase robust)
  intro command
  exact keeps_bind (keeps_run robust.toSteady _ _) fun _ => keeps_pure _

theorem keeps_digestLogin (robust : Robust I) : Keeps I digestLogin := by
  apply keeps_bind keeps_bound
  intro a
  apply keeps_bind (keeps_settle _)
  intro given
  apply keeps_bind (keeps_demand _ _)
  intro k
  have recorded : Keeps I (record k .nonce) := fun _ h => robust.nonce k h
  apply keeps_bind recorded
  intro _
  apply keeps_bind (keeps_run robust.toSteady _ _)
  intro rs
  apply keeps_bind (keeps_settle _)
  intro x
  apply keeps_bind (keeps_resume robust.toSteady _ _)
  intro rs
  apply keeps_bind (keeps_settle _)
  intro _
  exact keeps_bind (keeps_resume robust.toSteady _ _) fun rs =>
    keeps_ite (keeps_pure _) (keeps_throw _)

theorem keeps_authenticate (robust : Robust I) : Keeps I authenticate := by
  apply keeps_bind keeps_session
  intro s
  apply keeps_bind
    (keeps_attempt (keeps_ite (keeps_digestLogin robust) (keeps_plainLogin robust)))
  intro r
  cases r with
  | ok => exact keeps_pure _
  | error e =>
    cases e with
    | refused r =>
      apply keeps_ite ?_ (keeps_throw _)
      exact keeps_bind (keeps_report robust.toSteady _) fun _ => keeps_throw _
    | noCredentials => exact keeps_bind (keeps_report robust.toSteady _) fun _ => keeps_throw _
    | _ => exact keeps_throw _

theorem keeps_secureLink (lasting : Lasting I) : Keeps I secureLink := by
  intro s h
  cases hl : s.session.link with
  | none =>
    have hb : link s = .error .lost s := demand_none hl
    rw [secureLink, ends_bind_error hb]
    exact h
  | some l =>
    have hb : link s = .ok l s := demand_some hl
    have after : ∀ t : Scene, I t → t.session.link = some l →
        Ends (do
          setSession fun s => { s with link := some l.secure.2 }
          settle (upgraded l.secure.1)) t (fun _ => I) (fun _ => I) := by
      intro t ht hlt
      have secured := lasting.secures ht hlt
      exact ends_bind.2 (ends_settle.2 ⟨fun _ _ => secured, fun _ _ => secured⟩)
    rw [secureLink, ends_bind_ok hb]
    by_cases open? : l.isOpen = true
    · rw [if_pos open?]
      exact ends_bind.2 (after _ (lasting.asks l.owner h) hl)
    · rw [if_neg open?]
      exact after s h hl

theorem keeps_encrypt (lasting : Lasting I) : Keeps I encrypt := by
  apply keeps_bind keeps_session
  intro s
  apply keeps_ite ?_ (keeps_pure _)
  apply keeps_bind (keeps_setPhase lasting.toRobust _)
  intro _
  apply keeps_bind (keeps_run lasting.toSteady _ _)
  intro _
  apply keeps_bind (keeps_secureLink lasting)
  intro _
  exact keeps_bind (fun _ h => lasting.renews h) fun _ => keeps_discover lasting.toRobust

def converse : Op Unit := do
  greet
  discover
  encrypt
  setPhase .authenticating
  authenticate

theorem establish_eq : establish = (do setPhase .connecting; dial; converse) := rfl

theorem keeps_converse (lasting : Lasting I) : Keeps I converse := by
  apply keeps_bind (keeps_greet lasting.toRobust)
  intro _
  apply keeps_bind (keeps_discover lasting.toRobust)
  intro _
  apply keeps_bind (keeps_encrypt lasting)
  intro _
  exact keeps_bind (keeps_setPhase lasting.toRobust _) fun _ => keeps_authenticate lasting.toRobust

/-- What is made of the outcome of an opening: nothing half read is left, and the
phase and a report say how it went. -/
def conclude (result : Except Failure Unit) : Op Unit := do
  discard
  match result with
  | .ok () => setPhase .ready
  | .error e =>
    setPhase .failed
    if e.isOfLink then
      match e.health? with
      | some h => report h
      | none => pure ()
    throw e

theorem attemptOpening_eq : attemptOpening = attempt establish >>= conclude := rfl

/-- A report goes to the account that is bound, and changes nothing else. -/
theorem report_eq (h : Health) (s : Scene) : report h s = .ok () { s with world :=
    match s.session.account with
    | some k => s.world.record k (.report h)
    | none => s.world } := by
  cases hk : s.session.account with
  | none => simp only [report, hk]
  | some k =>
    simp only [report, hk]
    rfl

@[simp] theorem conclude_ok (s : Scene) :
    conclude (.ok ()) s = .ok () { s with session :=
  { s.session with
    framer := s.session.framer.map fun _ => .empty, phase := .ready } } := rfl

/-- A failed attempt fails in the end as it failed at first, and reports the failure if
it is one of the link. -/
theorem conclude_error (e : Failure) (s : Scene) : conclude (.error e) s = .error e {
    session := { s.session with
      framer := s.session.framer.map fun _ => .empty, phase := .failed }
    world := match e.lateReport?, s.session.account with
      | some h, some k => s.world.record k (.report h)
      | _, _ => s.world } := by
  let t : Scene := { s with session := { s.session with
    framer := s.session.framer.map fun _ => .empty, phase := .failed } }
  have failed : (do discard; setPhase .failed) s = .ok () t := rfl
  simp only [conclude]
  rw [← bind_assoc, bind_ok failed, Failure.lateReport?]
  by_cases ofLink : e.isOfLink = true
  · rw [if_pos ofLink, if_pos ofLink]
    cases e.health? with
    | none => rfl
    | some h =>
      dsimp only
      rw [bind_ok (report_eq h t)]
      cases hk : s.session.account with
      | none => simp only [t, hk]; rfl
      | some k => simp only [t, hk]; rfl
  · rw [if_neg ofLink, if_neg ofLink]
    rfl

def lateActs : Except Failure Unit → List Act
  | .ok () => []
  | .error e => e.lateReport?.toList.map Act.report

def lastPhase : Except Failure Unit → Phase
  | .ok () => .ready
  | .error _ => .failed

/-- To a session that is bound the end of an attempt does the same however far it came. -/
theorem conclude_bound {s : Scene} {k : Nat} (bound : s.session.account = some k)
    (r : Except Failure Unit) : conclude r s = ending r
      ⟨{ s.session with framer := s.session.framer.map fun _ => .empty, phase := lastPhase r },
        { s.world with log := s.world.log ++ (lateActs r).map (Event.mk k) }⟩ := by
  cases r with
  | ok u => simp [conclude_ok s, ending, lastPhase, lateActs]
  | error e =>
    rw [conclude_error, bound]
    cases h : e.lateReport? with
    | none => simp [ending, lastPhase, lateActs, h]
    | some health => simp [ending, lastPhase, lateActs, h, World.record]

theorem keeps_conclude (robust : Robust I) (result : Except Failure Unit) :
    Keeps I (conclude result) := by
  intro s h
  cases result with
  | ok => exact robust.phases .ready (robust.forgets h)
  | error e =>
    have failed := robust.phases .failed (robust.forgets h)
    rw [Ends, conclude_error]
    cases e.lateReport? with
    | none => exact failed
    | some health =>
      cases hk : s.session.account with
      | none => exact failed
      | some k => exact robust.reported k health failed

end Op

end ImapSession
