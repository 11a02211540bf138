import ImapSession.Proofs.Locality
import ImapSession.Proofs.Reached

/-!
What comes over a link before it is encrypted. It decides whether the session comes to
encrypt the link at all; but once that is done there is only one thing it has left
behind, the offer of capabilities, and that is gone with the next answer. So two
sessions that were told different things in plain go on alike over the same encryption.
-/
namespace ImapSession

def Scene.upgrades (s : Scene) : Nat := s.world.log.countP fun e => e.act == .secure

namespace Op

def logIn : Op Unit := do
  setPhase .authenticating
  authenticate

/-- What is left to do of an opening when the link has just been encrypted. -/
def afterUpgrade : Op Unit := do
  discover
  logIn

/-- Commands and logins do not ask for encryption. -/
theorem robust_upgrades (n : Nat) : Robust fun s => s.upgrades = n where
  reads _ h _ _ _ := h
  writes h _ _ := h
  forgets h := h
  draws h := h
  wrote k line shown h := by simpa [Scene.upgrades, World.record] using h
  reported k health h := by simpa [Scene.upgrades, World.record] using h
  phases _ h := h
  learns _ h := h
  builds h _ _ _ := h
  nonce k h := by simpa [Scene.upgrades, World.record] using h

end Op

namespace Opening

open Op

variable {b : Scene} {k : Nat} {x : Stand} {l : Link} {q : Option String} {n : Nat} {t : UInt64}
  {tls : List Segment}

/-- The session talks over this link in plain. So many lines were sent, the last of
them with this tag, and encryption was not asked for. -/
structure Plainly (l : Link) (q : Option String) (n : Nat) (t : UInt64) (x : Stand) : Prop where
  link : ∃ incoming peer, x.wire.link = { l with incoming, peer, writes := l.writes + n }
  tag : x.tag = t
  phrase : x.phrase = q
  unasked : .secure ∉ x.acts

theorem Plainly.owned (h : Plainly l q n t x) (owned : l.owner = k) : x.wire.link.owner = k := by
  obtain ⟨incoming, peer, link⟩ := h.link
  rw [link]
  exact owned

/-- A command that is answered is one line and one tag. -/
theorem plainly_heard {command : String} {sensitive : Bool} {rs : List Response}
    (h : Plainly l q n t x)
    (answer : (x.wire.use (.command (x.tag + 1) command sensitive)).answer = .ok rs) :
    Plainly l q (n + 1) (t + 1)
      (x.drew.heard (x.wire.use (.command (x.tag + 1) command sensitive))) where
  link := by
    obtain ⟨incoming, peer, link⟩ := h.link
    obtain ⟨incoming', peer', written⟩ := Wire.link_line answer
    refine ⟨incoming', peer', written.trans ?_⟩
    rw [link]
    rfl
  tag := congrArg (· + 1) h.tag
  phrase := h.phrase
  unasked := by
    intro hm
    rcases List.mem_append.1 hm with hm | hm
    · exact h.unasked hm
    · exact Wire.secure_not_mem hm

theorem greet_plainly (h : Plainly l q n t x) :
    Ends greet (x.scene b k) (fun _ => Stands b k (Plainly l q n t)) (fun _ _ => True) := by
  obtain ⟨incoming, peer, link⟩ := h.link
  obtain ⟨incoming', read⟩ := Wire.link_reading Framer.next x.wire
  rw [link] at read
  refine ends_bind.2 ?_
  rw [Ends, read_scene]
  cases (x.wire.reading Framer.next).1 with
  | error e => trivial
  | ok r =>
    dsimp only [ending]
    split
    · exact ⟨{ x with wire := (x.wire.reading Framer.next).2, phase := .greeted }, rfl,
        ⟨incoming', peer, read⟩, h.tag, h.phrase, h.unasked⟩
    · trivial

theorem discover_plainly (h : Plainly l q n t x) (owned : l.owner = k) :
    Ends discover (x.scene b k) (fun _ => Stands b k (Plainly l q (n + 1) (t + 1)))
      (fun _ _ => True) := by
  rw [Ends, discover_scene (h.owned owned) rfl]
  dsimp only
  cases hans : (x.wire.use (.command (x.tag + 1) Capabilities.word false)).answer with
  | error e => trivial
  | ok rs =>
    have heard := plainly_heard h hans
    exact ⟨_, rfl, heard.link, heard.tag, heard.phrase, heard.unasked⟩

def securedWire (l : Link) (tls : List Segment) : Wire :=
  ⟨{ l with isSecure := true, incoming := tls, peer := .mute, writes := l.writes + 2 }, .empty⟩

/-- The session when its link has just been encrypted, apart from what it was offered
and what was recorded. -/
def securedStand (l : Link) (tls : List Segment) (q : Option String) (t : UInt64) : Stand :=
  ⟨securedWire l tls, .empty, q, .securing, t, []⟩

/-- Encryption is never asked for, or the session comes to encrypt the link and goes on
from there with nothing but an offer of capabilities to show for what was said before. -/
def Diverts (op : Op Unit) (s b : Scene) (k : Nat) (x : Stand) : Prop :=
  Ends op s (fun _ u => u.upgrades = s.upgrades) (fun _ u => u.upgrades = s.upgrades) ∨
    ∃ (c : Capabilities) (before : List Act), .secure ∉ before ∧ op s = afterUpgrade
      ({ x with capabilities := c, acts := before ++ [Act.secure] }.scene b k)

theorem secured_granted (h : Plainly l q 2 t x) (owned : l.owner = k) (isOpen : l.isOpen)
    (granted : l.upgrade = .granted tls) :
    (do secureLink; setSession fun s => { s with framer := some .empty }) (x.scene b k) =
      .ok () (({ x with wire := securedWire l tls }.did .secure).scene b k) := by
  obtain ⟨incoming, peer, link⟩ := h.link
  have secure : x.wire.secure = ⟨[.secure], .ok [], securedWire l tls⟩ := by
    simp [Wire.secure, Link.secure, link, isOpen, granted, upgraded, securedWire]
  rw [secured_scene (h.owned owned), secure]
  rfl

/-- Where encryption is on offer, what is left is to ask for it and then all that follows it. -/
theorem encrypt_offered (offered : x.capabilities.has startTls = true) :
    (do encrypt; logIn) (x.scene b k) =
      (do
        let _ ← run startTls false
        (do secureLink; setSession fun s => { s with framer := some .empty })
        afterUpgrade) ({ x with phase := .securing }.scene b k) := by
  have hs : session (x.scene b k) = .ok (x.scene b k).session (x.scene b k) := rfl
  have hc : (x.scene b k).session.capabilities = x.capabilities := rfl
  have hp : setPhase .securing (x.scene b k) =
      .ok () ({ x with phase := .securing }.scene b k) := rfl
  rw [encrypt, bind_assoc, bind_ok hs, hc, if_pos offered, bind_assoc, bind_ok hp]
  simp only [afterUpgrade, bind_assoc]

theorem encrypt_unoffered (unoffered : x.capabilities.has startTls = false) :
    (do encrypt; logIn) (x.scene b k) = logIn (x.scene b k) := by
  have hs : session (x.scene b k) = .ok (x.scene b k).session (x.scene b k) := rfl
  have hc : (x.scene b k).session.capabilities = x.capabilities := rfl
  rw [encrypt, bind_assoc, bind_ok hs, hc, if_neg (by simp [unoffered]), pure_bind]

/-- From the first offer on, the session gets to the encryption of its link, or does not
ask for it. -/
theorem encrypt_diverts (h : Plainly l q 1 t x) (owned : l.owner = k) (isOpen : l.isOpen)
    (granted : l.upgrade = .granted tls) :
    Diverts (do encrypt; logIn) (x.scene b k) b k (securedStand l tls q (t + 1)) := by
  have robust := robust_upgrades (x.scene b k).upgrades
  cases offered : x.capabilities.has startTls with
  | false =>
    left
    rw [Ends, encrypt_unoffered offered]
    exact keeps_bind (keeps_setPhase robust _) (fun _ => keeps_authenticate robust) _ rfl
  | true =>
    have steps := encrypt_offered (b := b) (k := k) offered
    let y : Stand := { x with phase := .securing }
    have hy : Plainly l q 1 t y := ⟨h.link, h.tag, h.phrase, h.unasked⟩
    have made : run startTls false (y.scene b k) = _ := run_scene (hy.owned owned)
    dsimp only at made
    cases hans : (y.wire.use (.command (y.tag + 1) startTls false)).answer with
    | error e =>
      rw [hans] at made
      left
      rw [Ends, steps, bind_error made]
      exact (keeps_run robust.toSteady startTls false (y.scene b k) rfl).of_error made
    | ok rs =>
      rw [hans] at made
      have heard := plainly_heard hy hans
      refine .inr ⟨y.capabilities, _, heard.unasked, ?_⟩
      rw [steps, bind_ok made, bind_ok (secured_granted heard owned isOpen granted)]
      dsimp only [securedStand]
      rw [← heard.tag, ← heard.phrase]
      rfl

/-- What ends badly before that never asks for encryption, and what ends well goes on. -/
theorem Diverts.after {α : Type} {op : Op α} {f : α → Op Unit} {s : Scene} {P : Scene → Prop}
    (kept : Ends op s (fun _ u => u.upgrades = s.upgrades) (fun _ u => u.upgrades = s.upgrades))
    (good : Ends op s (fun _ => P) (fun _ _ => True))
    (next : ∀ a t, P t → Diverts (f a) t b k x) : Diverts (op >>= f) s b k x := by
  cases hop : op s with
  | error e t =>
    left
    rw [Ends, bind_error hop]
    exact kept.of_error hop
  | ok a t =>
    have same := kept.of_ok hop
    rcases next a t (good.of_ok hop) with quiet | ⟨c, before, unasked, turned⟩
    · left
      rw [Ends, bind_ok hop]
      rw [same] at quiet
      exact quiet
    · right
      exact ⟨c, before, unasked, (bind_ok hop).trans turned⟩

theorem converse_diverts (h : Plainly l q 0 t x) (owned : l.owner = k) (isOpen : l.isOpen)
    (granted : l.upgrade = .granted tls) :
    Diverts converse (x.scene b k) b k (securedStand l tls q (t + 1 + 1)) := by
  have robust := fun n => robust_upgrades n
  refine Diverts.after (keeps_greet (robust _) _ rfl) (greet_plainly h) ?_
  rintro _ _ ⟨y, rfl, greeted⟩
  refine Diverts.after (keeps_discover (robust _) _ rfl) (discover_plainly greeted owned) ?_
  rintro _ _ ⟨z, rfl, known⟩
  exact encrypt_diverts known owned isOpen granted

variable {s s₁ s₂ : Scene}

def encrypted (s : Scene) (k : Nat) (tls : List Segment) : Stand :=
  securedStand (newWire s k).link tls s.session.loginPhrase (lastTag s + 2)

/-- What is not a request for encryption does not count as one. -/
theorem upgrades_append {s t : Scene} {acts : List Event} (log : t.world.log = s.world.log ++ acts)
    (unasked : ∀ e ∈ acts, e.act ≠ .secure) : t.upgrades = s.upgrades := by
  have none : acts.countP (fun e => e.act == .secure) = 0 := by
    simpa [List.countP_eq_zero] using unasked
  rw [Scene.upgrades, log, List.countP_append, none]
  rfl

theorem establish_diverts (bound : s.session.account = some k)
    (granted : (s.world.dial k).1.upgrade = .granted tls) :
    Diverts establish s (base s k) k (encrypted s k tls) := by
  let s₁ : Scene := { s with session := { s.session with phase := .connecting } }
  have hd := dial_scene (s := s₁) bound
  have fresh : Plainly (newWire s k).link s.session.loginPhrase 0 (lastTag s) (freshStand s₁ k) :=
    ⟨⟨_, _, rfl⟩, rfl, rfl, by simp [freshStand]⟩
  have quiet : ∀ t : Scene,
      t.world.log = s₁.world.log ++ [Act.dial, Act.establish].map (Event.mk k) →
        t.upgrades = s₁.upgrades := fun t log => upgrades_append log (by simp)
  have dialled : Diverts (dial >>= fun _ => converse) s₁ (base s k) k (encrypted s k tls) := by
    refine Diverts.after (P := (· = (freshStand s₁ k).scene (base s k) k)) ?_ ?_ ?_
    · rw [Ends, hd]
      cases (s₁.world.dial k).1.openFault with
      | some f => exact quiet _ rfl
      | none =>
        refine quiet _ ?_
        rw [Stand.scene, log_base]
        rfl
    · rw [Ends, hd]
      cases (s₁.world.dial k).1.openFault with
      | some f => trivial
      | none => rfl
    · rintro _ _ rfl
      unfold encrypted
      rw [← add_one_add_one]
      exact converse_diverts fresh (owner_dial s.world k) rfl granted
  exact dialled

/-- An attempt encrypts the link that it gets, as that grants it, or does not ask for encryption. -/
theorem connect_diverts (bound : s.session.account = some k) (idle : isReady s.session = false)
    (granted : (s.world.dial k).1.upgrade = .granted tls) :
    Ends connect s (fun _ u => u.upgrades = s.upgrades) (fun _ u => u.upgrades = s.upgrades) ∨
      ∃ (c : Capabilities) (before : List Act), .secure ∉ before ∧
        connect s = (attempt afterUpgrade >>= conclude)
          ({ encrypted s k tls with capabilities := c, acts := before ++ [Act.secure] }.scene
            (base (cleared s) k) k) := by
  have bound' : (cleared s).session.account = some k := by simpa using bound
  have same : (cleared s).upgrades = s.upgrades := by
    refine upgrades_append rfl ?_
    unfold closing
    split <;> simp
  have granted' : ((cleared s).world.dial k).1.upgrade = .granted tls := by
    rw [← granted]
    exact congrArg (·.link.upgrade) (newWire_cleared s k)
  have attempted : connect s = (attempt establish >>= conclude) (cleared s) :=
    connect_eq bound idle
  rcases establish_diverts bound' granted' with quiet | ⟨c, before, unasked, turned⟩
  · left
    have robust := robust_upgrades s.upgrades
    rw [same] at quiet
    have ended : Ends (attempt establish >>= conclude) (cleared s)
        (fun _ u => u.upgrades = s.upgrades) (fun _ u => u.upgrades = s.upgrades) := by
      refine ends_bind.2 (ends_attempt.2 (quiet.imp ?_ ?_))
      · intro _ t kept
        exact keeps_conclude robust _ t kept
      · intro _ t kept
        exact keeps_conclude robust _ t kept
    rw [Ends, attempted]
    exact ended
  · right
    have stand : encrypted (cleared s) k tls = encrypted s k tls := by simp [encrypted]
    refine ⟨c, before, unasked, ?_⟩
    rw [attempted, ← stand]
    simp only [attempt, bind, EStateM.bind, turned]

def secondQuery (s : Scene) (k : Nat) (tls : List Segment) : Heard :=
  (securedWire (newWire s k).link tls).use (.command (lastTag s + 3) Capabilities.word false)

theorem local_logIn {a : Account} : Local a k logIn :=
  (blind_bind (blind_setPhase _) fun _ => blind_authenticate).local

/-- What was offered in plain has no influence on what is done once the link is encrypted.
Whether anything is left of the offer in the end depends on the second query. -/
theorem afterUpgrade_ends {a : Account} (owned : x.wire.link.owner = k) :
    ∃ r, ∃ y : Stand, ∃ left : Capabilities → Capabilities,
      (∀ b c, b.world.accounts k = a →
        (attempt afterUpgrade >>= conclude) ({ x with capabilities := c }.scene b k) =
          ending r ({ y with capabilities := left c }.scene b k)) ∧
      ((∀ c c', left c = left c') ∨ ∃ e, r = .error e ∧
        (x.wire.use (.command (x.tag + 1) Capabilities.word false)).answer = .error e) := by
  let h := x.wire.use (.command (x.tag + 1) Capabilities.word false)
  have query : ∀ b c, b.world.accounts k = a →
      discover ({ x with capabilities := c }.scene b k) = _ := fun b c account =>
    discover_scene (x := { x with capabilities := c }) owned account
  dsimp only at query
  cases hans : h.answer with
  | ok rs =>
    rw [hans] at query
    let known : Stand := { x.drew.heard h with
      capabilities := .ofResponses rs a.disabled, phase := .capabilitiesKnown }
    have owned' : known.wire.link.owner = k := (Wire.owner_use x.wire _).trans owned
    obtain ⟨r, y, -, hy⟩ := local_logIn (a := a) known owned'
    refine ⟨r, y.concluded r, fun _ => (y.concluded r).capabilities, ?_, .inl fun _ _ => rfl⟩
    intro b c account
    have ended : afterUpgrade ({ x with capabilities := c }.scene b k) = ending r (y.scene b k) :=
      (bind_ok (query b c account)).trans (hy b account)
    rw [bind_ok (attempt_ending ended), conclude_scene]
  | error e =>
    rw [hans] at query
    refine ⟨.error e, (x.drew.heard h).concluded (.error e), id, ?_, .inr ⟨e, rfl, rfl⟩⟩
    intro b c account
    have ended : afterUpgrade ({ x with capabilities := c }.scene b k) =
        ending (.error e) ({ x.drew.heard h with capabilities := c }.scene b k) :=
      bind_error (query b c account)
    rw [bind_ok (attempt_ending ended), conclude_scene]
    rfl

structure Recorded (s : Scene) (k : Nat) (before acts : List Act) (t : Scene) : Prop where
  log : t.world.log = s.world.log ++ closing s ++ (before ++ .secure :: acts).map (Event.mk k)
  unasked : .secure ∉ before

/-- Two scenes that differ in what comes over the next link in plain, and apart from that
in nothing that the session looks at. -/
structure Alike (k : Nat) (s₁ s₂ : Scene) : Prop where
  session : s₂.session = s₁.session
  account : s₂.world.accounts k = s₁.world.accounts k
  tag : lastTag s₂ = lastTag s₁
  link : ∃ incoming peer, (s₂.world.dial k).1 = { (s₁.world.dial k).1 with incoming, peer }

def Encrypts (s : Scene) : Prop :=
  Ends connect s (fun _ t => s.upgrades < t.upgrades) (fun _ t => s.upgrades < t.upgrades)

/-- Nothing of the difference is left when the link has just been encrypted, but for the
capabilities and what was recorded. -/
theorem Alike.encrypted_eq (h : Alike k s₁ s₂) : encrypted s₂ k tls = encrypted s₁ k tls := by
  obtain ⟨incoming, peer, link⟩ := h.link
  simp only [encrypted, securedStand, securedWire, newWire, link, h.session, h.tag]

def around (s : Scene) (k : Nat) (before : List Act) : Scene where
  session := (base (cleared s) k).session
  world := { (base (cleared s) k).world with
    log := s.world.log ++ closing s ++ (before ++ [Act.secure]).map (Event.mk k) }

@[simp] theorem accounts_around (s : Scene) (k : Nat) (before : List Act) :
    (around s k before).world.accounts = s.world.accounts :=
  accounts_base (cleared s) k

@[simp] theorem counter_around (s : Scene) (k : Nat) (before : List Act) :
    (around s k before).session.counter = s.session.counter := cleared_counter s

theorem connect_encrypts (bound : s.session.account = some k) (idle : isReady s.session = false)
    (granted : (s.world.dial k).1.upgrade = .granted tls) (asks : Encrypts s) :
    ∃ (c : Capabilities) (before : List Act), .secure ∉ before ∧
      connect s = (attempt afterUpgrade >>= conclude)
        ({ encrypted s k tls with capabilities := c }.scene (around s k before) k) := by
  rcases connect_diverts bound idle granted with quiet | ⟨c, before, unasked, turned⟩
  · have never := quiet.and asks
    unfold Ends at never
    cases hc : connect s with
    | ok a t =>
      simp only [hc] at never
      omega
    | error e t =>
      simp only [hc] at never
      omega
  · refine ⟨c, before, unasked, ?_⟩
    have log : (base (cleared s) k).world.log = s.world.log ++ closing s :=
      log_base (cleared s) k
    rw [turned, Stand.scene_rebase, log]
    rfl

theorem recorded_around {before : List Act} {y : Stand} (unasked : .secure ∉ before) :
    Recorded s k before y.acts (y.scene (around s k before) k) where
  log := by simp [Stand.scene, around]
  unasked := unasked

/-- Two attempts that come to encrypt links alike in all but what is said in plain end in
the same way: from there on they do the same, and come to the same session. What is known
of capabilities may differ in the end, but only if the query over the encrypted link
failed, and both attempts with it. -/
theorem connect_alike (alike : Alike k s₁ s₂) (bound : s₁.session.account = some k)
    (idle : isReady s₁.session = false) (granted : (s₁.world.dial k).1.upgrade = .granted tls)
    (asks₁ : Encrypts s₁) (asks₂ : Encrypts s₂) :
    ∃ r t₁ t₂ before₁ before₂ acts,
      connect s₁ = ending r t₁ ∧ connect s₂ = ending r t₂ ∧
      Recorded s₁ k before₁ acts t₁ ∧ Recorded s₂ k before₂ acts t₂ ∧
      { t₂.session with capabilities := t₁.session.capabilities } = t₁.session ∧
      lastTag t₂ = lastTag t₁ ∧
      (t₂.session.capabilities = t₁.session.capabilities ∨
        ∃ e, r = .error e ∧ (secondQuery s₁ k tls).answer = .error e) := by
  have granted₂ : (s₂.world.dial k).1.upgrade = .granted tls := by
    obtain ⟨incoming, peer, link⟩ := alike.link
    rw [link]
    exact granted
  obtain ⟨c₁, before₁, unasked₁, run₁⟩ := connect_encrypts bound idle granted asks₁
  obtain ⟨c₂, before₂, unasked₂, run₂⟩ := connect_encrypts (alike.session ▸ bound)
    (alike.session ▸ idle) granted₂ asks₂
  rw [alike.encrypted_eq] at run₂
  have account₁ : (around s₁ k before₁).world.accounts k = s₁.world.accounts k := by
    rw [accounts_around]
  have account₂ : (around s₂ k before₂).world.accounts k = s₁.world.accounts k := by
    rw [accounts_around, alike.account]
  have counter : (around s₂ k before₂).session.counter = (around s₁ k before₁).session.counter := by
    rw [counter_around, counter_around, alike.session]
  have owned : (encrypted s₁ k tls).wire.link.owner = k := owner_dial s₁.world k
  have second : secondQuery s₁ k tls = (encrypted s₁ k tls).wire.use
      (.command ((encrypted s₁ k tls).tag + 1) Capabilities.word false) := by
    rw [secondQuery, ← add_two_add_one]
    rfl
  obtain ⟨r, y, left, same, rest⟩ := afterUpgrade_ends (a := s₁.world.accounts k) owned
  let y₁ : Stand := { y with capabilities := left c₁ }
  let y₂ : Stand := { y with capabilities := left c₂ }
  refine ⟨r, y₁.scene (around s₁ k before₁) k, y₂.scene (around s₂ k before₂) k, before₁, before₂,
    y.acts, run₁.trans (same _ c₁ account₁), run₂.trans (same _ c₂ account₂),
    recorded_around (y := y₁) unasked₁, recorded_around (y := y₂) unasked₂, ?_, ?_, ?_⟩
  · simp only [Stand.scene, counter, y₁, y₂]
  · rw [lastTag_scene, lastTag_scene]
  · rcases rest with replaced | ⟨e, failed, unanswered⟩
    · exact .inl (replaced c₂ c₁)
    · exact .inr ⟨e, failed, second ▸ unanswered⟩

def tlsWorld (plain secret : String) : World :=
  { sampleWorld plain with supplies := fun _ =>
      ⟨[], { Server.link ⟨Utf8.encode plain, [], false⟩ with
        upgrade := .granted [.bytes (Utf8.encode secret)] }⟩ }

def tlsScene (plain secret : String) : Scene :=
  ⟨.bound (tlsWorld plain secret) 0, tlsWorld plain secret⟩

theorem alike_tlsScene (plain plain' secret : String) :
    Alike 0 (tlsScene plain secret) (tlsScene plain' secret) :=
  ⟨rfl, rfl, rfl, _, _, rfl⟩

theorem encrypts_tlsScene {plain secret : String} (h : Ends connect (tlsScene plain secret)
    (fun _ t => 0 < t.upgrades) (fun _ t => 0 < t.upgrades)) : Encrypts (tlsScene plain secret) := h

def offering : String := "* OK hello\r\n* CAPABILITY STARTTLS\r\n1 OK done\r\n2 OK go\r\n"

/-- An offer of encryption and of a login, with one answer more than was due. -/
def meddling : String :=
  "* OK hello\r\n* CAPABILITY STARTTLS AUTH=DIGEST-MD5\r\n1 OK done\r\n2 OK go\r\n3 OK done\r\n"

/-- The login is made as the server has it over the encrypted link. -/
theorem connect_alike_meddling :
    let secret := "* CAPABILITY IMAP4rev1\r\n3 OK done\r\n4 OK in\r\n"
    ∃ t₁ t₂ before₁ before₂ acts,
      connect (tlsScene offering secret) = .ok () t₁ ∧
      connect (tlsScene meddling secret) = .ok () t₂ ∧
      Recorded (tlsScene offering secret) 0 before₁ acts t₁ ∧
      Recorded (tlsScene meddling secret) 0 before₂ acts t₂ ∧ t₂.session = t₁.session := by
  intro secret
  have opens : Ends connect (tlsScene offering secret) (fun _ t => 0 < t.upgrades)
      fun _ _ => False := by decide +kernel
  have opens' : Ends connect (tlsScene meddling secret) (fun _ t => 0 < t.upgrades)
      fun _ _ => False := by decide +kernel
  obtain ⟨_, t, h, _⟩ := opens.succeeds
  obtain ⟨r, t₁, t₂, before₁, before₂, acts, run₁, run₂, recorded₁, recorded₂, same, -, offers⟩ :=
    connect_alike (alike_tlsScene offering meddling secret) rfl rfl rfl
      (encrypts_tlsScene (opens.imp (fun _ _ good => good) fun _ _ bad => bad.elim))
      (encrypts_tlsScene (opens'.imp (fun _ _ good => good) fun _ _ bad => bad.elim))
  cases r with
  | error e => cases h.symm.trans run₁
  | ok =>
    refine ⟨t₁, t₂, before₁, before₂, acts, run₁, run₂, recorded₁, recorded₂, ?_⟩
    rcases offers with equal | ⟨e, failed, -⟩
    · rw [← equal] at same
      exact same
    · cases failed

/-- If nothing is said over the encrypted link, each session is left with what it was offered in
plain. -/
theorem connect_alike_silent : ∃ e t₁ t₂,
    Alike 0 (tlsScene offering "") (tlsScene meddling "") ∧
    Encrypts (tlsScene offering "") ∧ Encrypts (tlsScene meddling "") ∧
    connect (tlsScene offering "") = .error e t₁ ∧
    connect (tlsScene meddling "") = .error e t₂ ∧
    t₁.session.link.any (·.isSecure) ∧ t₂.session.link.any (·.isSecure) ∧
    t₁.session.capabilities ≠ t₂.session.capabilities := by
  have fails : Ends connect (tlsScene offering "") (fun _ _ => False) fun e t => e = .lost ∧
      0 < t.upgrades ∧ t.session.link.any (·.isSecure) ∧
      t.session.capabilities.has digestOffer = false := by decide +kernel
  have fails' : Ends connect (tlsScene meddling "") (fun _ _ => False) fun e t => e = .lost ∧
      0 < t.upgrades ∧ t.session.link.any (·.isSecure) ∧
      t.session.capabilities.has digestOffer = true := by decide +kernel
  have asks : Encrypts (tlsScene offering "") :=
    encrypts_tlsScene (fails.imp (fun _ _ good => good.elim) fun _ _ bad => bad.2.1)
  have asks' : Encrypts (tlsScene meddling "") :=
    encrypts_tlsScene (fails'.imp (fun _ _ good => good.elim) fun _ _ bad => bad.2.1)
  obtain ⟨e, t, h, rfl, -, secure, unoffered⟩ := fails.fails
  obtain ⟨e, t', h', rfl, -, secure', offered⟩ := fails'.fails
  refine ⟨.lost, t, t', alike_tlsScene _ _ _, asks, asks', h, h', secure, secure', ?_⟩
  intro same
  rw [same, offered] at unoffered
  cases unoffered

end Opening

end ImapSession
