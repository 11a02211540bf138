import ImapSession.Proofs.Attempt
import ImapSession.Proofs.Steady

/-!
One attempt to open a session, from whatever scene it starts in. An old link is
taken down, a new one is asked for and established, and from then on the protocol
is followed. Whether the attempt succeeds or fails, what it recorded are the turns
of its run on the new link.
-/
namespace ImapSession.Opening

open Op

variable {s : Scene} {k : Nat}

/-- The link an account gives out next, established, with nothing read from it. -/
def newWire (s : Scene) (k : Nat) : Wire :=
  ⟨{ (s.world.dial k).1 with isOpen := true }, .empty⟩

def freshStand (s : Scene) (k : Nat) : Stand where
  wire := newWire s k
  capabilities := s.session.capabilities
  phrase := s.session.loginPhrase
  phase := s.session.phase
  tag := s.world.tags s.session.counter
  acts := [.dial, .establish]

def base (s : Scene) (k : Nat) : Scene := ⟨s.session, (s.world.dial k).2⟩

@[simp] theorem accounts_dial (w : World) (k : Nat) : (w.dial k).2.accounts = w.accounts := by
  cases h : (w.supplies k).links <;> simp [World.dial, h]

@[simp] theorem tags_dial (w : World) (k : Nat) : (w.dial k).2.tags = w.tags := by
  cases h : (w.supplies k).links <;> simp [World.dial, h]

@[simp] theorem log_dial (w : World) (k : Nat) : (w.dial k).2.log = w.log := by
  cases h : (w.supplies k).links <;> simp [World.dial, h]

@[simp] theorem accounts_base (s : Scene) (k : Nat) :
    (base s k).world.accounts = s.world.accounts := accounts_dial s.world k

@[simp] theorem log_base (s : Scene) (k : Nat) : (base s k).world.log = s.world.log :=
  log_dial s.world k

@[simp] theorem owner_dial (w : World) (k : Nat) : (w.dial k).1.owner = k := by
  cases h : (w.supplies k).links <;> simp [World.dial, h]

@[simp] theorem put_self {α : Type} (f : Nat → α) (i : Nat) : put f i (f i) = f := by
  funext j
  by_cases h : j = i
  · subst h
    simp
  · simp [h]

/-- A link is asked for and established; one that cannot be is not kept. -/
theorem dial_scene (bound : s.session.account = some k) :
    dial s =
      match (s.world.dial k).1.openFault with
      | some f => .error (.link f) ⟨s.session,
          { (s.world.dial k).2 with log := s.world.log ++ [⟨k, .dial⟩, ⟨k, .establish⟩] }⟩
      | none => .ok () ((freshStand s k).scene (base s k) k) := by
  have ha : Op.account s = .ok k s := demand_some bound
  have hw : world s = .ok s.world s := rfl
  have hset : (setWorld fun _ => (s.world.dial k).2) s = .ok () (base s k) := rfl
  have hrecord : (do record k .dial; record k .establish) (base s k) =
      .ok () ⟨s.session,
        { (s.world.dial k).2 with log := s.world.log ++ [⟨k, .dial⟩, ⟨k, .establish⟩] }⟩ := by
    simp [record, setWorld, World.record, base, bind, EStateM.bind]
  rw [dial, bind_ok ha, bind_ok hw]
  dsimp only
  rw [bind_ok hset, ← bind_assoc, bind_ok hrecord]
  cases hf : (s.world.dial k).1.openFault with
  | some f => simp [Link.establish, hf, settle, Except.mapError, bind, EStateM.bind]
  | none =>
    simp [Link.establish, hf, settle, Except.mapError, bind, EStateM.bind, setSession, Stand.scene,
      freshStand, newWire, base, bound]

/-- What was kept of a login command is what the account would have made of it. -/
def PhraseKept (s : Scene) : Prop :=
  ∀ k q, s.session.account = some k → s.session.loginPhrase = some q →
    (s.world.accounts k).phrase = .ok q

def lastTag (s : Scene) : UInt64 := s.world.tags s.session.counter

@[simp] theorem lastTag_scene (b : Scene) (k : Nat) (x : Stand) :
    lastTag (x.scene b k) = x.tag := by
  simp [lastTag, Stand.scene]

def Completes (s : Scene) (k : Nat) (x : Stand) : Prop :=
  ∃ c, Along (s.world.accounts k) (lastTag s) (newWire s k) k (.opened c) x

theorem fresh_along (bound : s.session.account = some k) (kept : PhraseKept s) :
    Along (s.world.accounts k) (lastTag s) (newWire s k) k .dialled (freshStand s k) where
  run := ⟨[], .start, .none, by simp [freshStand, Act.onLink]⟩
  owned := owner_dial s.world k
  drawn := rfl
  offers := trivial
  phrase q hq := kept k q bound hq

def Undialled (s : Scene) (k : Nat) (s' : Scene) : Prop :=
  s'.session.account = some k ∧
    s'.world.log = s.world.log ++ [Act.dial, Act.establish].map (Event.mk k)

/-- If the link comes up, the opening is one run of the protocol on it. -/
theorem establish_linked (bound : s.session.account = some k) (kept : PhraseKept s)
    (up : (s.world.dial k).1.openFault = none) :
    Ends Op.establish s (fun _ => Stands (base s k) k (Completes s k))
      (fun e => Stands (base s k) k
        (BrokenOff (s.world.accounts k) (lastTag s) (newWire s k) e)) := by
  let s₁ : Scene := { s with session := { s.session with phase := .connecting } }
  have hs : setPhase .connecting s = .ok () s₁ := rfl
  have hd := dial_scene (s := s₁) bound
  have up' : (s₁.world.dial k).1.openFault = none := up
  have account : (base s k).world.accounts k = s.world.accounts k := by simp
  rw [up'] at hd
  rw [Op.establish, ends_bind_ok hs, ends_bind_ok hd]
  have dialled : Along (s.world.accounts k) (lastTag s) (newWire s k) k .dialled
      (freshStand s₁ k) := fresh_along (s := s₁) bound kept
  exact converse_along (b := base s k) dialled account

/-- The opening is one run of the protocol on a new link, complete or broken off. -/
theorem establish_along (bound : s.session.account = some k) (kept : PhraseKept s) :
    Ends Op.establish s (fun _ => Stands (base s k) k (Completes s k))
      (fun _ s' => Undialled s k s' ∨
        Stands (base s k) k (Broken (s.world.accounts k) (lastTag s) (newWire s k)) s') := by
  cases up : (s.world.dial k).1.openFault with
  | some f =>
    let s₁ : Scene := { s with session := { s.session with phase := .connecting } }
    have hs : setPhase .connecting s = .ok () s₁ := rfl
    have hd := dial_scene (s := s₁) bound
    have up' : (s₁.world.dial k).1.openFault = some f := up
    rw [up'] at hd
    rw [Op.establish, ends_bind_ok hs, ends_bind_error hd]
    exact .inl ⟨bound, rfl⟩
  | none =>
    refine (establish_linked bound kept up).imp_error ?_
    rintro e s' ⟨x, rfl, off⟩
    exact .inr ⟨x, rfl, off.broken⟩

/-- These turns were made on a link, and what was recorded since the log stood at
`log` are these acts, in which a server could notice the turns and nothing else. -/
structure Ran (w : Wire) (log : List Event) (k : Nat) (turns : List Turn) (acts : List Act)
    (s : Scene) : Prop where
  plays : ∃ v, w.Plays turns v
  recorded : s.world.log = log ++ acts.map (Event.mk k)
  noticed : acts.filter Act.onLink = .establish :: turns.flatMap Turn.noticed

def Opened (a : Account) (t : UInt64) (w : Wire) (log : List Event) (k : Nat) (s : Scene) : Prop :=
  s.session.phase = .ready ∧ ∃ turns acts,
    Follows a t turns (.opened s.session.capabilities) ∧ Ran w log k turns acts s

/-- These turns are a run that broke off, if the link came up at all, and the last
offer made on it is the one that is known now. -/
def Stuck (a : Account) (t : UInt64) (turns : List Turn) (s : Scene) : Prop :=
  turns = [] ∨ ∃ σ e, Breaks a t turns σ e ∧ σ.Offers s.session.capabilities

def Failed (a : Account) (t : UInt64) (w : Wire) (log : List Event) (k : Nat) (s : Scene) : Prop :=
  s.session.phase = .failed ∧ ∃ turns acts, Stuck a t turns s ∧ Ran w log k turns acts s

theorem ran_of_track {turns : List Turn} {x : Stand} (track : Track (newWire s k) turns x) :
    Ran (newWire s k) s.world.log k turns x.acts (x.scene (base s k) k) where
  plays := ⟨_, track.plays⟩
  recorded := by simp [Stand.scene]
  noticed := track.noticed

/-- A failure to establish the link is a run that did not begin; any other one is a
run that broke off. -/
theorem stuck_of_failed {s' : Scene} (h : Undialled s k s' ∨
      Stands (base s k) k (Broken (s.world.accounts k) (lastTag s) (newWire s k)) s') :
    s'.session.account = some k ∧ ∃ turns acts,
      Stuck (s.world.accounts k) (lastTag s) turns s' ∧
      Ran (newWire s k) s.world.log k turns acts s' := by
  rcases h with ⟨bound, log⟩ | ⟨x, rfl, turns, σ, e, breaks, track, offers⟩
  · exact ⟨bound, [], [.dial, .establish], .inl rfl, ⟨_, .none⟩, log, by simp [Act.onLink]⟩
  · exact ⟨rfl, turns, x.acts, .inr ⟨σ, e, breaks, offers⟩, ran_of_track track⟩

/-- An attempt ends ready with a complete run, or failed with one that broke off. -/
theorem attemptOpening_ends (bound : s.session.account = some k) (kept : PhraseKept s) :
    Ends attemptOpening s
      (fun _ => Opened (s.world.accounts k) (lastTag s) (newWire s k) s.world.log k)
      (fun _ => Failed (s.world.accounts k) (lastTag s) (newWire s k) s.world.log k) := by
  rw [attemptOpening_eq]
  refine ends_bind.2 (ends_attempt.2 ((establish_along bound kept).imp ?_ ?_))
  · rintro - s' ⟨x, rfl, c, along⟩
    obtain ⟨turns, follows, track⟩ := along.run
    obtain rfl : x.capabilities = c := along.offers
    have ran := ran_of_track track
    exact ⟨rfl, turns, x.acts, follows, ran.plays, ran.recorded, ran.noticed⟩
  · intro e s' h
    obtain ⟨account, turns, acts, stuck, ran⟩ := stuck_of_failed h
    rw [Ends, conclude_error, account]
    cases e.lateReport? with
    | none => exact ⟨rfl, turns, acts, stuck, ran.plays, ran.recorded, ran.noticed⟩
    | some health =>
      refine ⟨rfl, turns, acts ++ [.report health], stuck, ran.plays, ?_, ?_⟩
      · simp [World.record, ran.recorded]
      · simp [ran.noticed, Act.onLink]

def closing (s : Scene) : List Event :=
  match s.session.link with
  | some l => [⟨l.owner, .close⟩]
  | none => []

/-- A session is released whatever it has, and is then closed. -/
theorem release_eq (s : Scene) : release s =
    .ok () ⟨{ s.session with link := none, framer := none, phase := .closed },
      { s.world with log := s.world.log ++ closing s }⟩ := by
  cases hl : s.session.link with
  | none => simp [release, hangUp, bind, EStateM.bind, hl, setSession, closing]
  | some l =>
    simp [release, hangUp, bind, EStateM.bind, hl, setSession, closing, record, setWorld,
      World.record]

/-- The scene that an attempt starts from: a link that is still there is taken down. -/
def cleared (s : Scene) : Scene where
  session :=
    if s.session.link.isSome then
      { s.session with link := none, framer := none, phase := .closed }
    else s.session
  world := { s.world with log := s.world.log ++ closing s }

@[simp] theorem cleared_account (s : Scene) :
    (cleared s).session.account = s.session.account := by
  unfold cleared
  dsimp only
  split <;> rfl

@[simp] theorem cleared_counter (s : Scene) :
    (cleared s).session.counter = s.session.counter := by
  unfold cleared
  dsimp only
  split <;> rfl

@[simp] theorem cleared_loginPhrase (s : Scene) :
    (cleared s).session.loginPhrase = s.session.loginPhrase := by
  unfold cleared
  dsimp only
  split <;> rfl

@[simp] theorem cleared_accounts (s : Scene) :
    (cleared s).world.accounts = s.world.accounts := rfl

theorem PhraseKept.cleared (kept : PhraseKept s) : PhraseKept (cleared s) := by
  intro j q hj hq
  rw [cleared_account] at hj
  rw [cleared_loginPhrase] at hq
  exact kept j q hj hq

@[simp] theorem lastTag_cleared (s : Scene) : lastTag (cleared s) = lastTag s := by
  rw [lastTag, cleared_counter]
  rfl

@[simp] theorem dial_cleared (s : Scene) (k : Nat) :
    ((cleared s).world.dial k).1 = (s.world.dial k).1 := by
  cases h : (s.world.supplies k).links <;> simp [World.dial, cleared, h]

@[simp] theorem newWire_cleared (s : Scene) (k : Nat) : newWire (cleared s) k = newWire s k := by
  rw [newWire, dial_cleared, newWire]

/-- A session that is bound and not ready is opened from where nothing of an old link
is left. -/
theorem connect_eq (bound : s.session.account = some k) (idle : isReady s.session = false) :
    connect s = attemptOpening (cleared s) := by
  have hs : session s = .ok s.session s := rfl
  have ha : Op.account (cleared s) = .ok k (cleared s) := demand_some (by simpa using bound)
  have attempt : (do let _ ← Op.account; attemptOpening) (cleared s) =
      attemptOpening (cleared s) := bind_ok ha
  rw [connect, bind_ok hs, if_neg (by simp [idle]), bind_ok hs]
  by_cases linked : s.session.link.isSome = true
  · have hr : release s = .ok () (cleared s) := by rw [release_eq, cleared, if_pos linked]
    rw [if_pos linked, bind_ok hr]
    exact attempt
  · have hc : cleared s = s := by
      have none : s.session.link = none := by simpa using linked
      simp [cleared, closing, none]
    rw [if_neg linked]
    rw [hc] at attempt ⊢
    exact attempt

/-- A session that is not ready is opened afresh: the link it has is taken down, and
one run of the protocol is made on a new one. -/
theorem connect_ends (bound : s.session.account = some k) (idle : isReady s.session = false)
    (kept : PhraseKept s) :
    Ends connect s
      (fun _ => Opened (s.world.accounts k) (lastTag s) (newWire s k)
        (s.world.log ++ closing s) k)
      (fun _ => Failed (s.world.accounts k) (lastTag s) (newWire s k)
        (s.world.log ++ closing s) k) := by
  have attempt := attemptOpening_ends (s := cleared s) (by simpa using bound) kept.cleared
  rw [lastTag_cleared, newWire_cleared] at attempt
  rw [Ends, connect_eq bound idle]
  exact attempt

end ImapSession.Opening
