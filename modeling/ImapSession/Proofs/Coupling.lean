import ImapSession.Proofs.Connecting
import ImapSession.Session.Request

/-!
The same done in two scenes. What is said of the two is that they stand in a relation
before, and in a relation afterwards, and that both end well with values that go together,
or both with the same failure. The rules follow the way operations are put together. A
relation that every kind of step keeps is kept by every request, whatever link the session
has and however its openings go. The two scenes may be one and the same: then the relation
says something about what became of it.
-/
namespace ImapSession

/-- An account gives out its links one after the other, and at last always the spare. -/
theorem World.dial_link (w : World) (k : Nat) : (w.dial k).1 =
    { (w.supplies k).links.headD (w.supplies k).spare with owner := k } := by
  cases h : (w.supplies k).links <;> simp [dial, h]

theorem World.dial_supplies (w : World) (k : Nat) : (w.dial k).2.supplies =
    put w.supplies k { w.supplies k with links := (w.supplies k).links.tail } := by
  cases h : (w.supplies k).links with
  | nil =>
    have same : { w.supplies k with links := [] } = w.supplies k := by rw [← h]
    simp [dial, h, same]
  | cons l rest => simp [dial, h]

def World.dialled (w : World) (k : Nat) : World :=
  { (w.dial k).2 with log := w.log ++ [⟨k, .dial⟩, ⟨k, .establish⟩] }

/-- The link is in use as before, as far as writing to it goes; it may have gone down. -/
structure Link.Rests (l m : Link) : Prop where
  owner : m.owner = l.owner
  writes : m.writes = l.writes
  writeFaults : m.writeFaults = l.writeFaults
  closedFault : m.closedFault = l.closedFault
  down : m.isOpen → l.isOpen

theorem Link.rests_refl (l : Link) : l.Rests l := ⟨rfl, rfl, rfl, rfl, id⟩

theorem Link.rests_sever (l : Link) : l.Rests l.sever := ⟨rfl, rfl, rfl, rfl, nofun⟩

theorem Link.rests_secure (l : Link) : l.Rests l.secure.2 := by
  unfold secure
  split
  · exact l.rests_refl
  · split
    · exact ⟨rfl, rfl, rfl, rfl, id⟩
    · exact l.rests_refl
    · exact l.rests_sever

/-- The session stays bound as it is. It gets no link that it did not have, and the one it
keeps is not written to. -/
structure Session.Shifts (u v : Session) : Prop where
  account : v.account = u.account
  counter : v.counter = u.counter
  loginPhrase : v.loginPhrase = u.loginPhrase
  link : ∀ m, v.link = some m → ∃ l, u.link = some l ∧ l.Rests m

/-- A session that keeps its link as it is does not write to it. -/
theorem Session.Shifts.of_link {u v : Session} (account : v.account = u.account)
    (counter : v.counter = u.counter) (loginPhrase : v.loginPhrase = u.loginPhrase)
    (link : v.link = u.link) : u.Shifts v where
  account := account
  counter := counter
  loginPhrase := loginPhrase
  link m hm := ⟨m, link.symm.trans hm, m.rests_refl⟩

theorem Session.shifts_sever (u : Session) : u.Shifts u.sever where
  account := rfl
  counter := rfl
  loginPhrase := rfl
  link m hm := by
    obtain ⟨l, hl, rfl⟩ := Option.map_eq_some_iff.1 hm
    exact ⟨l, hl, l.rests_sever⟩

/-- Nothing is written, and no link is asked for. -/
def Act.aside : Act → Bool
  | .write _ _ => false
  | .dial => false
  | .establish => false
  | _ => true

/-- Both answers are the same, or both are tags that go together. -/
inductive Answer.Alike (T : String → String → Prop) : Answer → Answer → Prop
  | same (a : Answer) : Alike T a a
  | tags {tag tag' : String} (together : T tag tag') : Alike T (.tag tag) (.tag tag')

namespace Op

variable {α β γ : Type} {P P' Q Q' R U E E' : Scene → Scene → Prop}
variable {V : α → α → Prop} {W : β → β → Prop}

def Match (V : α → α → Prop) (Q E : Scene → Scene → Prop) :
    EStateM.Result Failure Scene α → EStateM.Result Failure Scene α → Prop
  | .ok a t, .ok a' t' => V a a' ∧ Q t t'
  | .error e t, .error e' t' => e' = e ∧ E t t'
  | _, _ => False

/-- From two scenes like this the operations come to endings that go together. -/
def Coupled (P Q E : Scene → Scene → Prop) (V : α → α → Prop) (op op' : Op α) : Prop :=
  ∀ s s', P s s' → Match V Q E (op s) (op' s')

/-- Both end well, with values that go together, or both fail with the same. -/
theorem Coupled.ends {op op' : Op α} (h : Coupled P Q E V op op') {s s' : Scene} (hs : P s s') :
    (∃ a a' t t', op s = .ok a t ∧ op' s' = .ok a' t' ∧ V a a' ∧ Q t t') ∨
      ∃ e t t', op s = .error e t ∧ op' s' = .error e t' ∧ E t t' := by
  have made := h s s' hs
  unfold Match at made
  split at made
  · rename_i hr hr'
    exact .inl ⟨_, _, _, _, hr, hr', made⟩
  · rename_i hr hr'
    obtain ⟨rfl, ht⟩ := made
    exact .inr ⟨_, _, _, hr, hr', ht⟩
  · exact made.elim

theorem Coupled.pre {op op' : Op α} (h : Coupled P Q E V op op') (pre : ∀ s s', P' s s' → P s s') :
    Coupled P' Q E V op op' := fun s s' hs => h s s' (pre s s' hs)

theorem Coupled.post {op op' : Op α} (h : Coupled P Q E V op op') (good : ∀ s s', Q s s' → Q' s s')
    (bad : ∀ s s', E s s' → E' s s') : Coupled P Q' E' V op op' := by
  intro s s' hs
  rcases h.ends hs with ⟨a, a', t, t', hr, hr', together, ht⟩ | ⟨e, t, t', hr, hr', ht⟩
  · rw [hr, hr']
    exact ⟨together, good _ _ ht⟩
  · rw [hr, hr']
    exact ⟨rfl, bad _ _ ht⟩

theorem coupled_pure {a a' : α} (h : V a a') : Coupled Q Q E V (pure a) (pure a') :=
  fun _ _ hs => ⟨h, hs⟩

theorem coupled_throw (e : Failure) : Coupled E Q E V (throw e : Op α) (throw e) :=
  fun _ _ hs => ⟨rfl, hs⟩

theorem coupled_settle {r : Except Failure α} (h : ∀ a, r = .ok a → V a a) :
    Coupled R R R V (settle r) (settle r) := by
  intro s s' hs
  cases r with
  | ok a => exact ⟨h a rfl, hs⟩
  | error e => exact ⟨rfl, hs⟩

theorem ends_somehow (op : Op α) (s : Scene) : ∃ r t, op s = ending r t := by
  cases h : op s with
  | ok a t => exact ⟨.ok a, t, rfl⟩
  | error e t => exact ⟨.error e, t, rfl⟩

/-- Where the outcome is the same, so are the endings. -/
theorem match_ending {t t' : Scene} (r : Except Failure α) (h : R t t') :
    Match Eq R R (ending r t) (ending r t') := by
  cases r with
  | ok a => exact ⟨rfl, h⟩
  | error e => exact ⟨rfl, h⟩

theorem match_map {t t' : Scene} {a a' : α} (r : Except Failure γ) (together : V a a')
    (h : R t t') : Match V R R (ending (r.map fun _ => a) t) (ending (r.map fun _ => a') t') := by
  cases r with
  | ok => exact ⟨together, h⟩
  | error e => exact ⟨rfl, h⟩

theorem coupled_bind {op op' : Op α} {f f' : α → Op β} (h : Coupled P Q E V op op')
    (next : ∀ a a', V a a' → Coupled Q U E W (f a) (f' a')) :
    Coupled P U E W (op >>= f) (op' >>= f') := by
  intro s s' hs
  rcases h.ends hs with ⟨a, a', t, t', hr, hr', together, ht⟩ | ⟨e, t, t', hr, hr', ht⟩
  · rw [bind_ok hr, bind_ok hr']
    exact next a a' together t t' ht
  · rw [bind_error hr, bind_error hr']
    exact ⟨rfl, ht⟩

/-- After an attempt both go on from how it ended, well or with the same failure. -/
theorem coupled_attempt {op op' : Op α} {f f' : Except Failure α → Op β}
    (h : Coupled P Q E Eq op op') (good : ∀ a, Coupled Q U E' W (f (.ok a)) (f' (.ok a)))
    (bad : ∀ e, Coupled E U E' W (f (.error e)) (f' (.error e))) :
    Coupled P U E' W (attempt op >>= f) (attempt op' >>= f') := by
  intro s s' hs
  rcases h.ends hs with ⟨a, _, t, t', hr, hr', rfl, ht⟩ | ⟨e, t, t', hr, hr', ht⟩
  · have tried : attempt op s = .ok (.ok a) t := attempt_ending hr
    have tried' : attempt op' s' = .ok (.ok a) t' := attempt_ending hr'
    rw [bind_ok tried, bind_ok tried']
    exact good a t t' ht
  · have tried : attempt op s = .ok (.error e) t := attempt_ending hr
    have tried' : attempt op' s' = .ok (.error e) t' := attempt_ending hr'
    rw [bind_ok tried, bind_ok tried']
    exact bad e t t' ht

theorem coupled_ite {c : Prop} [Decidable c] {op op' op₁ op₁' : Op α}
    (h : Coupled P Q E V op op') (h₁ : Coupled P Q E V op₁ op₁') :
    Coupled P Q E V (if c then op else op₁) (if c then op' else op₁') := by
  split
  · exact h
  · exact h₁

/-- To look at the session is to know it as it is in either scene. -/
theorem coupled_session {f f' : Session → Op β}
    (h : ∀ s s', P s s' → Match W Q E (f s.session s) (f' s'.session s')) :
    Coupled P Q E W (session >>= f) (session >>= f') := h

/-- A part that both sessions have alike is given to both, or is missing from both. -/
theorem coupled_demand {part : Session → Option γ} {e : Failure} {f f' : γ → Op β}
    (alike : ∀ s s', P s s' → part s'.session = part s.session) (bad : ∀ s s', P s s' → E s s')
    (next : ∀ c, Coupled (fun s s' => P s s' ∧ part s.session = some c) Q E W (f c) (f' c)) :
    Coupled P Q E W (demand part e >>= f) (demand part e >>= f') := by
  intro s s' hs
  have same := alike s s' hs
  cases hp : part s.session with
  | none =>
    rw [hp] at same
    rw [bind_error (demand_none hp), bind_error (demand_none same)]
    exact ⟨rfl, bad s s' hs⟩
  | some c =>
    rw [hp] at same
    rw [bind_ok (demand_some hp), bind_ok (demand_some same)]
    exact next c s s' ⟨hs, hp⟩

def Linked (R : Scene → Scene → Prop) (s s' : Scene) : Prop := R s s' ∧ s.session.link.isSome

/-- Nothing of an opening takes the link away again. -/
theorem lasting_linked : Lasting fun s => s.session.link.isSome where
  reads _ _ _ _ _ := rfl
  writes _ _ _ := rfl
  forgets h := h
  draws h := h
  wrote _ _ _ h := h
  reported _ _ h := h
  phases _ h := h
  learns _ h := h
  builds h _ _ _ := h
  nonce _ h := h
  asks _ h := h
  secures _ _ := rfl
  renews h := h

/-- Where the link stays it is there afterwards. -/
theorem Coupled.linked {op op' : Op α} (h : Coupled (Linked R) R R V op op')
    (keeps : Keeps (fun s => s.session.link.isSome) op) :
    Coupled (Linked R) (Linked R) (Linked R) V op op' := by
  intro s s' hs
  have kept := keeps s hs.2
  unfold Ends at kept
  rcases h.ends hs with ⟨a, a', t, t', hr, hr', together, ht⟩ | ⟨e, t, t', hr, hr', ht⟩
  · rw [hr] at kept
    rw [hr, hr']
    exact ⟨together, ht, kept⟩
  · rw [hr] at kept
    rw [hr, hr']
    exact ⟨rfl, ht, kept⟩

theorem linked_of {op op' : Op α} (h : Coupled R R R V op op') : Coupled (Linked R) R R V op op' :=
  h.pre fun _ _ hs => hs.1

def taking (k : Nat) : Op Unit := do
  let (l, w) := (← world).dial k
  setWorld fun _ => w
  record k .dial
  record k .establish
  let l ← settle (l.establish.mapError .link)
  setSession fun s => { s with link := some l, framer := some .empty }

theorem dial_eq : dial = account >>= taking := rfl

/-- A link that cannot be established is not kept. -/
theorem taking_eq (k : Nat) (s : Scene) : taking k s =
    match (s.world.dial k).1.establish with
    | .ok l => .ok ()
      ⟨{ s.session with link := some l, framer := some .empty }, s.world.dialled k⟩
    | .error f => .error (.link f) ⟨s.session, s.world.dialled k⟩ := by
  have world : ((s.world.dial k).2.record k .dial).record k .establish = s.world.dialled k := by
    simp [World.record, World.dialled]
  rw [← world]
  cases he : (s.world.dial k).1.establish with
  | ok l =>
    simp only [taking, Op.world, setWorld, record, bind, EStateM.bind, he, Except.mapError, settle,
      setSession]
  | error f =>
    simp only [taking, Op.world, setWorld, record, bind, EStateM.bind, he, Except.mapError, settle]

structure Dialled (k : Nat) (s t : Scene) : Prop where
  counter : t.session.counter = s.session.counter
  loginPhrase : t.session.loginPhrase = s.session.loginPhrase
  world : t.world = s.world.dialled k

theorem dialled_of_taking {k : Nat} {r : Except Failure Unit} {s t : Scene}
    (h : taking k s = ending r t) : Dialled k s t := by
  rw [taking_eq] at h
  cases he : (s.world.dial k).1.establish with
  | ok l =>
    simp only [he] at h
    cases r with
    | ok u =>
      obtain ⟨-, rfl⟩ := EStateM.Result.ok.inj h
      exact ⟨rfl, rfl, rfl⟩
    | error e => cases h
  | error f =>
    simp only [he] at h
    cases r with
    | ok u => cases h
    | error e =>
      obtain ⟨-, rfl⟩ := EStateM.Result.error.inj h
      exact ⟨rfl, rfl, rfl⟩

def prepare : Op Unit := do
  setPhase .connecting
  dial
  greet
  discover
  encrypt
  setPhase .authenticating

/-- What is made of how a login ended. -/
def judge (result : Except Failure Unit) : Op Unit :=
  match result with
  | .ok () => pure ()
  | .error (.refused r) =>
    if r.ofCredentials then do
      report .badConfiguration
      throw (.denied (.refused r))
    else throw (.refused r)
  | .error .noCredentials => do
    report .badConfiguration
    throw .noCredentials
  | .error e => throw e

theorem authenticate_judge : authenticate = session >>= fun s =>
    attempt (if s.capabilities.has digestOffer then digestLogin else plainLogin) >>= judge := rfl

def confirming : Op Unit := do
  let rs ← resume "" false
  if rs.getLast?.any Response.isCompletion then pure () else throw (.breach .unfinished)

def proving (x : Exchange) : Op Unit := do
  let rs ← resume (Exchange.encode x.answer) true
  settle (verified x rs)
  confirming

def exchanging (a : Account) (given : String × String) : Op Unit := do
  record (← account) .nonce
  let rs ← run ("AUTHENTICATE " ++ Exchange.mechanism) false
  let x ← settle (challenged a given.1 given.2 rs)
  proving x

theorem digestLogin_eq : digestLogin = (do
    let a ← bound
    let given ← settle a.credentials
    exchanging a given) := rfl

theorem establish_prepare : establish = prepare >>= fun _ => authenticate := by
  simp only [establish, prepare, bind_assoc]

/-- What may be handed to a link: texts, and commands that go behind a tag. Each is to be shown
in the record or is not. -/
structure Vocabulary where
  texts : String → Bool → Prop
  commands : String → Bool → Prop

namespace Vocabulary

def all : Vocabulary := ⟨fun _ _ => True, fun _ _ => True⟩

/-- All that an opening takes is there, whoever logs in and whatever the server challenges. -/
structure Opens (W : Vocabulary) : Prop where
  offer : W.commands Capabilities.word false
  agree : W.commands startTls false
  login : ∀ {username password q}, phrase username password = .ok q → W.commands q true
  authenticate : W.commands ("AUTHENTICATE " ++ Exchange.mechanism) false
  answer : ∀ x : Exchange, W.texts (Exchange.encode x.answer) true
  finish : W.texts "" false

def Asks (W : Vocabulary) : Request → Prop
  | .send command sensitive => W.commands command sensitive
  | .execute command sensitive => W.commands command sensitive
  | .resume payload sensitive => W.texts payload sensitive
  | _ => True

theorem opens_all : all.Opens where
  offer := trivial
  agree := trivial
  login _ := trivial
  authenticate := trivial
  answer _ := trivial
  finish := trivial

theorem asks_all (r : Request) : all.Asks r := by
  cases r <;> exact trivial

end Vocabulary

/-- A relation that is kept by each kind of step that takes no tag and needs no account, as long
as no other texts are written. The two sessions are the same up to the login command they have
kept. -/
structure KeptUntagged (W : Vocabulary) (R : Scene → Scene → Prop) : Prop where
  session : ∀ {s s'}, R s s' →
    s'.session = { s.session with loginPhrase := s'.session.loginPhrase }
  shifts : ∀ {s s'} {v : Session}, R s s' → s.session.Shifts v → R { s with session := v }
    { s' with session := { v with loginPhrase := s'.session.loginPhrase } }
  records : ∀ {s s'} (k : Nat) (act : Act), R s s' → act.aside →
    R { s with world := s.world.record k act } { s' with world := s'.world.record k act }
  writes : ∀ {text sensitive}, W.texts text sensitive → Coupled (Linked R) R R Eq
    (write text (if sensitive then redacted else text))
    (write text (if sensitive then redacted else text))

/-- A relation that is kept by each kind of step before a login; `T` is how the tags of
the commands go together. -/
structure KeptToLogin (W : Vocabulary) (R : Scene → Scene → Prop) (T : String → String → Prop) :
    Prop extends KeptUntagged W R where
  opens : W.Opens
  disabled : ∀ {s s'} {k : Nat}, R s s' → s.session.account = some k →
    (s'.world.accounts k).disabled = (s.world.accounts k).disabled
  dials : ∀ k : Nat, Coupled (fun s s' => R s s' ∧ s.session.account = some k) R R Eq
    (taking k) (taking k)
  sends : ∀ {command sensitive}, W.commands command sensitive → Coupled (Linked R) R R T
    (sendTagged command sensitive) (sendTagged command sensitive)

variable {W : Vocabulary}

namespace KeptUntagged

theorem link (kept : KeptUntagged W R) {s s' : Scene} (h : R s s') :
    s'.session.link = s.session.link := by
  rw [kept.session h]

theorem framer (kept : KeptUntagged W R) {s s' : Scene} (h : R s s') :
    s'.session.framer = s.session.framer := by
  rw [kept.session h]

theorem account (kept : KeptUntagged W R) {s s' : Scene} (h : R s s') :
    s'.session.account = s.session.account := by
  rw [kept.session h]

theorem setSession (kept : KeptUntagged W R) {f : Session → Session}
    (pre : ∀ s s', P s s' → R s s')
    (apart : ∀ u q, f { u with loginPhrase := q } = { f u with loginPhrase := q })
    (shifts : ∀ s s', P s s' → s.session.Shifts (f s.session)) :
    Coupled P R E Eq (Op.setSession f) (Op.setSession f) := by
  intro s s' hs
  have moved := kept.shifts (pre s s' hs) (shifts s s' hs)
  have same : f s'.session = { f s.session with loginPhrase := s'.session.loginPhrase } :=
    (congrArg f (kept.session (pre s s' hs))).trans (apart _ _)
  refine ⟨rfl, ?_⟩
  rw [same]
  exact moved

theorem setPhase (kept : KeptUntagged W R) (p : Phase) :
    Coupled R R E Eq (Op.setPhase p) (Op.setPhase p) :=
  kept.setSession (fun _ _ hs => hs) (fun _ _ => rfl) fun _ _ _ => .of_link rfl rfl rfl rfl

theorem discard (kept : KeptUntagged W R) : Coupled R R E Eq Op.discard Op.discard :=
  kept.setSession (fun _ _ hs => hs) (fun _ _ => rfl) fun _ _ _ => .of_link rfl rfl rfl rfl

theorem report (kept : KeptUntagged W R) (health : Health) :
    Coupled R R E Eq (Op.report health) (Op.report health) := by
  intro s s' hs
  have same := kept.account hs
  rw [report_eq, report_eq, same]
  cases s.session.account with
  | none => exact ⟨rfl, hs⟩
  | some k => exact ⟨rfl, kept.records k (.report health) hs rfl⟩

theorem reading (kept : KeptUntagged W R)
    (g : Framer → Stream → Except Failure α × Framer × Stream) :
    Coupled R R R Eq (Op.reading g) (Op.reading g) := by
  apply coupled_demand (fun s s' hs => kept.framer hs) (fun _ _ hs => hs)
  intro before
  apply coupled_demand (fun s s' hs => kept.link hs.1) (fun _ _ hs => hs.1)
  intro l
  apply coupled_ite
  · rcases g before l.stream with ⟨result, after, stream⟩
    apply coupled_bind (V := Eq) (Q := R) ?_ fun _ _ _ => coupled_settle fun _ _ => rfl
    apply kept.setSession (fun _ _ hs => hs.1.1) (fun _ _ => rfl)
    intro s s' hs
    refine ⟨rfl, rfl, rfl, fun m hm => ⟨l, hs.2, ?_⟩⟩
    obtain rfl := Option.some.inj hm
    exact ⟨rfl, rfl, rfl, rfl, id⟩
  · exact (coupled_throw _).pre fun _ _ hs => hs.1.1

theorem collect (kept : KeptUntagged W R) : Coupled R R R Eq Op.collect Op.collect := by
  apply coupled_bind (kept.reading _)
  rintro ⟨before, last⟩ _ rfl
  apply coupled_ite (coupled_pure rfl)
  apply coupled_bind kept.discard
  intro _ _ _
  apply coupled_bind (kept.report _)
  intro _ _ _
  exact coupled_ite (coupled_throw _) (coupled_throw _)

/-- A text may be written on a session that has no link. -/
theorem write (kept : KeptUntagged W R) {text : String} {sensitive : Bool}
    (said : W.texts text sensitive) : Coupled R R R Eq
      (Op.write text (if sensitive then redacted else text))
      (Op.write text (if sensitive then redacted else text)) := by
  intro s s' hs
  cases hl : s.session.link with
  | none =>
    have missing : Op.link s = .error .lost s := demand_none hl
    have missing' : Op.link s' = .error .lost s' := demand_none ((kept.link hs).trans hl)
    rw [Op.write, bind_error missing, bind_error missing']
    exact ⟨rfl, hs⟩
  | some l => exact kept.writes said s s' ⟨hs, by rw [hl]; rfl⟩

theorem resume (kept : KeptUntagged W R) {payload : String} {sensitive : Bool}
    (said : W.texts payload sensitive) :
    Coupled R R R Eq (Op.resume payload sensitive) (Op.resume payload sensitive) :=
  coupled_bind (kept.write said) fun _ _ _ => kept.collect

theorem secureLink (kept : KeptUntagged W R) : Coupled R R R Eq Op.secureLink Op.secureLink := by
  apply coupled_demand (fun s s' hs => kept.link hs) (fun _ _ hs => hs)
  intro l
  have after : Coupled (fun s s' => R s s' ∧ s.session.link = some l) R R Eq
      (do Op.setSession fun s => { s with link := some l.secure.2 }
          settle (upgraded l.secure.1))
      (do Op.setSession fun s => { s with link := some l.secure.2 }
          settle (upgraded l.secure.1)) := by
    apply coupled_bind (V := Eq) (Q := R) ?_ fun _ _ _ => coupled_settle fun _ _ => rfl
    apply kept.setSession (fun _ _ hs => hs.1) (fun _ _ => rfl)
    intro s s' hs
    refine ⟨rfl, rfl, rfl, fun m hm => ⟨l, hs.2, ?_⟩⟩
    obtain rfl := Option.some.inj hm
    exact l.rests_secure
  by_cases up : l.isOpen = true
  · simp only [if_pos up]
    refine coupled_bind (V := Eq) (fun s s' hs => ⟨rfl, ?_, ?_⟩) fun _ _ _ => after
    · exact kept.records l.owner .secure hs.1 rfl
    · exact hs.2
  · simp only [if_neg up]
    exact after

/-- A login that failed fails in the end, in the same way for both. -/
theorem judge_error (kept : KeptUntagged W R) (e : Failure) :
    Coupled R Q R Eq (Op.judge (.error e)) (Op.judge (.error e)) := by
  have reported : ∀ e : Failure, Coupled R Q R Eq
      (do Op.report .badConfiguration; throw e : Op Unit)
      (do Op.report .badConfiguration; throw e) := fun e =>
    coupled_bind (kept.report _) fun _ _ _ => coupled_throw e
  cases e with
  | refused r => exact coupled_ite (c := r.ofCredentials = true) (reported _) (coupled_throw _)
  | noCredentials => exact reported _
  | _ => exact coupled_throw _

theorem conclude_ok (kept : KeptUntagged W R) :
    Coupled R R E Eq (Op.conclude (.ok ())) (Op.conclude (.ok ())) :=
  coupled_bind kept.discard fun _ _ _ => kept.setPhase .ready

/-- The end of a failed attempt is the same failure for both. -/
theorem conclude_error (kept : KeptUntagged W R) (e : Failure) :
    Coupled R Q R Eq (Op.conclude (.error e)) (Op.conclude (.error e)) := by
  apply coupled_bind kept.discard
  intro _ _ _
  apply coupled_bind (kept.setPhase _)
  intro _ _ _
  dsimp only
  by_cases ofLink : e.isOfLink = true
  · simp only [if_pos ofLink]
    cases e.health? with
    | none => exact coupled_throw e
    | some health =>
      exact coupled_bind (kept.report health) fun _ _ _ => coupled_throw e
  · simp only [if_neg ofLink]
    exact coupled_throw e

end KeptUntagged

namespace KeptToLogin

variable {T : String → String → Prop}

theorem run (kept : KeptToLogin W R T) {command : String} {sensitive : Bool}
    (said : W.commands command sensitive) :
    Coupled (Linked R) (Linked R) (Linked R) Eq (Op.run command sensitive)
      (Op.run command sensitive) := by
  refine Coupled.linked ?_ (keeps_run lasting_linked.toSteady _ _)
  exact coupled_bind (kept.sends said) fun _ _ _ => kept.collect

theorem greet (kept : KeptToLogin W R T) :
    Coupled (Linked R) (Linked R) (Linked R) Eq Op.greet Op.greet := by
  refine Coupled.linked (linked_of ?_) (keeps_greet lasting_linked.toRobust)
  apply coupled_bind (kept.reading _)
  rintro r _ rfl
  apply coupled_ite (kept.setPhase _)
  exact coupled_bind (kept.report _) fun _ _ _ => coupled_throw _

/-- Both look at an account, and the two have the same names switched off. -/
theorem bound (kept : KeptToLogin W R T) :
    Coupled R R R (fun a a' => a'.disabled = a.disabled) Op.bound Op.bound := by
  intro s s' hs
  have same := kept.account hs
  rw [bound_eq, bound_eq, same]
  cases hk : s.session.account with
  | none => exact ⟨rfl, hs⟩
  | some k => exact ⟨kept.disabled hs hk, hs⟩

theorem discover (kept : KeptToLogin W R T) :
    Coupled (Linked R) (Linked R) (Linked R) Eq Op.discover Op.discover := by
  refine Coupled.linked ?_ (keeps_discover lasting_linked.toRobust)
  refine coupled_bind ((kept.run kept.opens.offer).post (fun _ _ hs => hs.1) fun _ _ hs => hs.1) ?_
  rintro rs _ rfl
  apply coupled_bind kept.bound
  intro a a' same
  rw [same]
  exact kept.setSession (fun _ _ hs => hs) (fun _ _ => rfl) fun _ _ _ => .of_link rfl rfl rfl rfl

theorem encrypt (kept : KeptToLogin W R T) :
    Coupled (Linked R) (Linked R) (Linked R) Eq Op.encrypt Op.encrypt := by
  apply coupled_session
  intro s s' hs
  have offers : s'.session.capabilities = s.session.capabilities := by rw [kept.session hs.1]
  rw [offers]
  refine coupled_ite (P := Linked R) ?_ (coupled_pure rfl) s s' hs
  refine coupled_bind ((linked_of (kept.setPhase _)).linked
    (keeps_setPhase lasting_linked.toRobust _)) ?_
  intro _ _ _
  apply coupled_bind (kept.run kept.opens.agree)
  intro _ _ _
  refine coupled_bind ((linked_of kept.secureLink).linked (keeps_secureLink lasting_linked)) ?_
  intro _ _ _
  have renewed : Coupled R R R Eq
      (Op.setSession fun s => { s with framer := some .empty })
      (Op.setSession fun s => { s with framer := some .empty }) :=
    kept.setSession (fun _ _ hs => hs) (fun _ _ => rfl) fun _ _ _ => .of_link rfl rfl rfl rfl
  refine coupled_bind ((linked_of renewed).linked fun _ h => lasting_linked.renews h) ?_
  exact fun _ _ _ => kept.discover

/-- A link that is dialled well is there. -/
theorem dial (kept : KeptToLogin W R T) : Coupled R (Linked R) R Eq Op.dial Op.dial := by
  rw [dial_eq]
  apply coupled_demand (fun s s' hs => kept.account hs) (fun _ _ hs => hs)
  intro k s s' hs
  have made := kept.dials k s s' hs
  have linked := taking_eq k s
  unfold Match at *
  split at made
  · rename_i hr _
    refine ⟨made.1, made.2, ?_⟩
    rw [hr] at linked
    split at linked
    · obtain ⟨-, rfl⟩ := EStateM.Result.ok.inj linked
      rfl
    · cases linked
  · exact made
  · exact made.elim

theorem prepare (kept : KeptToLogin W R T) : Coupled R (Linked R) R Eq Op.prepare Op.prepare := by
  have weak : ∀ {op op' : Op Unit}, Coupled (Linked R) (Linked R) (Linked R) Eq op op' →
      Coupled (Linked R) (Linked R) R Eq op op' := fun h =>
    h.post (fun _ _ hs => hs) fun _ _ hs => hs.1
  apply coupled_bind (kept.setPhase _)
  intro _ _ _
  apply coupled_bind kept.dial
  intro _ _ _
  apply coupled_bind (weak kept.greet)
  intro _ _ _
  apply coupled_bind (weak kept.discover)
  intro _ _ _
  apply coupled_bind (weak kept.encrypt)
  intro _ _ _
  exact weak ((linked_of (kept.setPhase _)).linked (keeps_setPhase lasting_linked.toRobust _))

end KeptToLogin

end Op

end ImapSession
