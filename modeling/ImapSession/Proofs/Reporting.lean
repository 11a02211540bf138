import ImapSession.Proofs.Reached

/-!
What is reported of a failure. Whoever owns an account is told of the health of its
links, but not everything that goes wrong is told: what an attempt to open a session
reports depends on nothing but the failure it ends in. Three relations lead there.
The first is about commands, the second about the login, and the third about the
whole of what is said, before the end of the attempt adds the failures of the link.
-/
namespace ImapSession

/-- What is reported of an attempt that fails so. Of a line that breaks the protocol
after the greeting nothing is, and nothing of a login in which it is the exchange and
not the server that fails. -/
def Failure.reports : Failure → List Health
  | .link _ => [.communicationError]
  | .lost => [.communicationError]
  | .handshake => [.serverError]
  | .breach (.greeting _) => [.serverError]
  | .breach _ => []
  | .unavailable _ => [.serverError]
  | .denied (.refused _) => [.serverError, .badConfiguration]
  | .denied _ => []
  | .refused _ => [.serverError]
  | .character _ => []
  | .noCredentials => [.badConfiguration]
  | .unbound => []

/-- The failure says something about the health of the link that is not reported. -/
def Failure.isUntold : Failure → Bool
  | .breach (.greeting _) => false
  | .breach _ => true
  | .denied (.refused _) => false
  | .denied _ => true
  | _ => false

/-- What a failure says is the last thing reported of it, unless it is untold. -/
theorem Failure.reports_iff (e : Failure) :
    (∀ h, e.health? = some h → e.reports.getLast? = some h) ↔ e.isUntold = false := by
  cases e with
  | breach b => cases b <;> simp [health?, reports, isUntold]
  | denied d => cases d <;> simp [health?, reports, isUntold]
  | _ => simp [health?, reports, isUntold]

def Scene.told (s : Scene) (k : Nat) : List Health := World.reports s.world.log k

@[simp] theorem World.reports_append (log more : List Event) (k : Nat) :
    reports (log ++ more) k = reports log k ++ reports more k := by
  simp [reports]

theorem World.reports_report (k : Nat) (h : Health) : reports [⟨k, .report h⟩] k = [h] := by
  simp [reports]

def Act.isQuiet : Act → Bool
  | .report _ => false
  | _ => true

theorem World.reports_quiet {acts : List Event} (k : Nat) (h : ∀ e ∈ acts, e.act.isQuiet) :
    reports acts k = [] := by
  simp only [reports, List.filterMap_eq_nil_iff]
  intro e he
  have quiet := h e he
  cases ha : e.act with
  | report health => simp [ha, Act.isQuiet] at quiet
  | _ => rfl

/-- What is no report does not change what was reported. -/
theorem Scene.told_quiet {s t : Scene} (k : Nat) (acts : List Event)
    (log : t.world.log = s.world.log ++ acts) (quiet : ∀ e ∈ acts, e.act.isQuiet) :
    t.told k = s.told k := by
  simp [Scene.told, log, World.reports_quiet k quiet]

theorem Scene.told_record (s : Scene) (k j : Nat) {a : Act} (quiet : a.isQuiet) :
    Scene.told { s with world := s.world.record j a } k = s.told k :=
  Scene.told_quiet k [⟨j, a⟩] rfl (by simpa using quiet)

theorem Scene.told_report (s : Scene) (k : Nat) (h : Health) :
    Scene.told { s with world := s.world.record k (.report h) } k = s.told k ++ [h] := by
  rw [Scene.told, World.record, World.reports_append, World.reports_report]
  rfl

def Adds (k : Nat) (s : Scene) (hs : List Health) (t : Scene) : Prop :=
  t.session.account = some k ∧ t.told k = s.told k ++ hs

namespace Op

open Opening

variable {α β : Type} {R : Failure → List Health → Prop} {k : Nat}

/-- For a bound account, the operation reports nothing if it ends well, and what
`R` allows if it fails. -/
def Tells (R : Failure → List Health → Prop) (op : Op α) : Prop :=
  ∀ s k, s.session.account = some k →
    Ends op s (fun _ t => Adds k s [] t) (fun e t => ∃ hs, R e hs ∧ Adds k s hs t)

theorem Tells.imp {R' : Failure → List Health → Prop} {op : Op α} (h : Tells R op)
    (more : ∀ e hs, R e hs → R' e hs) : Tells R' op := by
  intro s k hk
  refine (h s k hk).imp_error ?_
  rintro e t ⟨hs, allowed, adds⟩
  exact ⟨hs, more e hs allowed, adds⟩

theorem tells_pure (a : α) : Tells R (pure a) := fun _ _ hk => ⟨hk, by simp⟩

theorem tells_throw {e : Failure} (h : R e []) : Tells R (throw e : Op α) :=
  fun _ _ hk => ⟨[], h, hk, by simp⟩

theorem tells_settle {r : Except Failure α} (h : ∀ e, r = .error e → R e []) :
    Tells R (settle r) := by
  intro s k hk
  exact ends_settle.2 ⟨fun _ _ => ⟨hk, by simp⟩, fun e he => ⟨[], h e he, hk, by simp⟩⟩

theorem tells_bind {op : Op α} {f : α → Op β} (h : Tells R op) (next : ∀ a, Tells R (f a)) :
    Tells R (op >>= f) := by
  intro s k hk
  refine (h s k hk).bind ?_
  rintro a t ⟨ht, told⟩
  refine (next a t k ht).imp ?_ ?_
  · rintro b u ⟨hu, more⟩
    exact ⟨hu, by simpa [told] using more⟩
  · rintro e u ⟨hs, allowed, hu, more⟩
    exact ⟨hs, allowed, hu, by simpa [told] using more⟩

theorem tells_ite {c : Prop} [Decidable c] {op op' : Op α} (h : Tells R op) (h' : Tells R op') :
    Tells R (if c then op else op') := by
  split
  · exact h
  · exact h'

theorem tells_session : Tells R session := fun _ _ hk => ⟨hk, by simp⟩

theorem tells_world : Tells R world := fun _ _ hk => ⟨hk, by simp⟩

theorem tells_demand {part : Session → Option α} {e : Failure} (h : R e []) :
    Tells R (demand part e) := by
  intro s k hk
  unfold Ends demand
  cases part s.session with
  | some a => exact ⟨hk, by simp⟩
  | none => exact ⟨[], h, hk, by simp⟩

theorem tells_setSession {f : Session → Session} (account : ∀ x, (f x).account = x.account) :
    Tells R (setSession f) := by
  intro s k hk
  exact ⟨(account s.session).trans hk, by simp [Scene.told]⟩

theorem tells_setWorld {f : World → World} (log : ∀ w, (f w).log = w.log) :
    Tells R (setWorld f) := by
  intro s k hk
  exact ⟨hk, by simp [Scene.told, log]⟩

theorem tells_record (j : Nat) {a : Act} (quiet : a.isQuiet) : Tells R (record j a) := by
  intro s k hk
  exact ⟨hk, by simpa using Scene.told_record s k j quiet⟩

theorem tells_setPhase (p : Phase) : Tells R (setPhase p) := tells_setSession fun _ => rfl

theorem tells_discard : Tells R discard := tells_setSession fun _ => rfl

/-- A report adds what is reported, and leaves the session as it is. -/
theorem ends_report {s : Scene} {h : Health} {good : Unit → Scene → Prop}
    {bad : Failure → Scene → Prop} (hk : s.session.account = some k)
    (next : ∀ t, Adds k s [h] t → good () t) : Ends (report h) s good bad := by
  rw [Ends, report_eq, hk]
  exact next _ ⟨hk, s.told_report k h⟩

/-- What is reported of a failed command by the time it comes back. -/
inductive Talk : Failure → List Health → Prop
  | link (f : Fault) : Talk (.link f) []
  | lost : Talk .lost []
  | unreadable (line : String) : Talk (.breach (.unreadable line)) []
  | oversized (length : Nat) : Talk (.breach (.oversized length)) []
  | unavailable (text : String) : Talk (.unavailable text) [.serverError]
  | refused (r : Refusal) : Talk (.refused r) [.serverError]

/-- What is reported of a failed login while it is not yet known to be one. -/
inductive Raised : Failure → List Health → Prop
  | talk {e : Failure} {hs : List Health} (h : Talk e hs) : Raised e hs
  | denied (d : Denial) (own : d.refusal? = none) : Raised (.denied d) []
  | noContinuation (shown : String) : Raised (.breach (.noContinuation shown)) []
  | unfinished : Raised (.breach .unfinished) []
  | character (c : Char) : Raised (.character c) []
  | noCredentials : Raised .noCredentials []
  | unbound : Raised .unbound []

/-- What is reported of a failure before the attempt ends: all but failures of the link. -/
def Pending (e : Failure) (hs : List Health) : Prop := hs = if e.isOfLink then [] else e.reports

theorem Talk.pending {e : Failure} {hs : List Health} (h : Talk e hs) : Pending e hs := by
  cases h <;> rfl

theorem talk_next {f : Framer} {s : Stream} {e : Failure} (h : (f.next s).1 = .error e) :
    Talk e [] := by
  unfold Framer.next at h
  dsimp only at h
  split at h
  · cases h
    exact .link _
  · cases h
    exact .lost
  · cases h
    exact .oversized _
  · split at h
    · cases h
    · cases h
      exact .unreadable _

/-- A batch fails as the response that could not be read. -/
theorem talk_batch {done : List Response} {f : Framer} {s : Stream} {e : Failure}
    (h : (Framer.batchOnto done f s).1 = .error e) : Talk e [] := by
  fun_induction Framer.batchOnto done f s with
  | case1 done f s e' g t read =>
    cases h
    exact talk_next (by rw [read])
  | case2 => cases h
  | case3 done f s r g t read terminal ih => exact ih h

theorem tells_reading {g : Framer → Stream → Except Failure α × Framer × Stream}
    (fails : ∀ f s e, (g f s).1 = .error e → Talk e []) : Tells Talk (reading g) := by
  apply tells_bind (tells_demand .lost)
  intro f
  apply tells_bind (tells_demand .lost)
  intro l
  apply tells_ite ?_ (tells_throw (.link _))
  have own := fails f l.stream
  rcases hg : g f l.stream with ⟨result, after, stream⟩
  rw [hg] at own
  refine tells_bind (tells_setSession fun _ => rfl) fun _ => tells_settle own

theorem tells_read : Tells Talk read := tells_reading fun _ _ _ => talk_next

/-- A refusal is reported where it is read. -/
theorem tells_collect : Tells Talk collect := by
  apply tells_bind (tells_reading fun _ _ _ => talk_batch)
  rintro ⟨before, last⟩
  apply tells_ite (tells_pure _)
  apply tells_bind tells_discard
  intro _ s k hk
  apply ends_bind.2
  apply ends_report hk
  intro t adds
  dsimp only
  split
  · exact ⟨_, .unavailable _, adds⟩
  · exact ⟨_, .refused _, adds⟩

theorem tells_write (line shown : String) : Tells Talk (write line shown) := by
  apply tells_bind (tells_demand .lost)
  intro l
  rcases l.write line with ⟨result, l'⟩
  refine tells_bind (tells_setSession fun _ => rfl) fun _ => tells_bind (tells_settle ?_) fun _ => ?_
  · intro e he
    cases result with
    | ok => cases he
    | error f =>
      cases he
      exact .link f
  · exact tells_record _ rfl

theorem tells_sendTagged (command : String) (sensitive : Bool) :
    Tells Talk (sendTagged command sensitive) := by
  apply tells_bind tells_session
  intro s
  apply tells_bind tells_world
  intro w
  refine tells_bind (tells_setWorld fun _ => rfl) fun _ => ?_
  exact tells_bind (tells_write _ _) fun _ => tells_pure _

theorem tells_run (command : String) (sensitive : Bool) : Tells Talk (run command sensitive) :=
  tells_bind (tells_sendTagged _ _) fun _ => tells_collect

theorem tells_resume (payload : String) (sensitive : Bool) :
    Tells Talk (resume payload sensitive) :=
  tells_bind (tells_write _ _) fun _ => tells_collect

/-- A greeting that will not do is reported where it is read. -/
theorem tells_greet : Tells Pending greet := by
  apply tells_bind (tells_read.imp fun _ _ => Talk.pending)
  intro r
  apply tells_ite (tells_setPhase _)
  intro s k hk
  apply ends_bind.2
  apply ends_report hk
  intro t adds
  exact ⟨_, rfl, adds⟩

theorem tells_discover : Tells Pending discover := by
  apply tells_bind ((tells_run _ _).imp fun _ _ => Talk.pending)
  intro rs
  apply tells_bind
  · apply tells_bind tells_world
    intro w
    exact tells_bind (tells_demand rfl) fun _ => tells_pure _
  · intro a
    exact tells_setSession fun _ => rfl

theorem tells_secureLink : Tells Pending secureLink := by
  apply tells_bind (tells_demand rfl)
  intro l
  have after : Tells Pending (do
      setSession fun s => { s with link := some l.secure.2 }
      settle (upgraded l.secure.1)) := by
    refine tells_bind (tells_setSession fun _ => rfl) fun _ => tells_settle ?_
    intro e he
    cases hu : l.secure.1 with
    | secured => simp [hu, upgraded] at he
    | failed f =>
      rw [hu] at he
      cases he
      rfl
    | broken =>
      rw [hu] at he
      cases he
      rfl
  exact tells_ite (tells_bind (tells_record _ rfl) fun _ => after) after

theorem tells_encrypt : Tells Pending encrypt := by
  apply tells_bind tells_session
  intro s
  apply tells_ite ?_ (tells_pure _)
  apply tells_bind (tells_setPhase _)
  intro _
  apply tells_bind ((tells_run _ _).imp fun _ _ => Talk.pending)
  intro _
  apply tells_bind tells_secureLink
  intro _
  exact tells_bind (tells_setSession fun _ => rfl) fun _ => tells_discover

theorem tells_bound {R : Failure → List Health → Prop} (h : R .unbound []) : Tells R bound := by
  apply tells_bind tells_world
  intro w
  exact tells_bind (tells_demand h) fun _ => tells_pure _

theorem raised_credentials {a : Account} {e : Failure} (h : a.credentials = .error e) :
    Raised e [] := by
  unfold Account.credentials at h
  split at h
  · cases h
  · cases h
    exact .noCredentials

theorem raised_phrase {username password : String} {e : Failure}
    (h : phrase username password = .error e) : Raised e [] := by
  have line : ∀ {x : String}, oneLine x = .error e → Raised e [] := by
    intro x hx
    unfold oneLine at hx
    split at hx
    · cases hx
      exact .character _
    · cases hx
  unfold phrase at h
  cases hu : oneLine username with
  | error e' =>
    rw [hu] at h
    cases h
    exact line hu
  | ok u =>
    cases hp : oneLine password with
    | error e' =>
      rw [hu, hp] at h
      cases h
      exact line hp
    | ok p =>
      rw [hu, hp] at h
      cases h

theorem tells_loginPhrase : Tells Raised loginPhrase := by
  have build : Tells Raised newPhrase := by
    apply tells_bind (tells_bound .unbound)
    intro a
    apply tells_bind (tells_settle fun _ => raised_credentials)
    rintro ⟨username, password⟩
    apply tells_bind (tells_settle fun _ => raised_phrase)
    intro command
    exact tells_bind (tells_setSession fun _ => rfl) fun _ => tells_pure _
  intro s k hk
  cases hq : s.session.loginPhrase with
  | some q =>
    have hl : loginPhrase s = .ok q s := by simp only [loginPhrase, hq]
    rw [Ends, hl]
    exact ⟨hk, by simp⟩
  | none =>
    have hl : loginPhrase s = newPhrase s := by simp only [loginPhrase, hq]
    rw [Ends, hl]
    exact build s k hk

theorem tells_plainLogin : Tells Raised plainLogin := by
  apply tells_bind tells_loginPhrase
  intro command
  exact tells_bind ((tells_run _ _).imp fun _ _ => .talk) fun _ => tells_pure _

theorem raised_payload {rs : List Response} {e : Failure} (h : payload rs = .error e) :
    Raised e [] := by
  unfold payload at h
  split at h
  · split at h
    · rename_i r _ _
      unfold Exchange.decode at h
      split at h
      · cases h
      · cases h
        exact .denied _ rfl
    · cases h
      exact .noContinuation _
  · cases h
    exact .noContinuation _

theorem raised_challenged {a : Account} {username password : String} {rs : List Response}
    {e : Failure} (h : challenged a username password rs = .error e) : Raised e [] := by
  unfold challenged at h
  cases hp : payload rs with
  | error e' =>
    rw [hp] at h
    cases h
    exact raised_payload hp
  | ok text =>
    rw [hp] at h
    simp only [bind, Except.bind, Exchange.ofChallenge] at h
    split at h
    · cases h
      exact .denied _ rfl
    · split at h
      · cases h
      · split at h
        · cases h
        · cases h
          exact .denied _ rfl

theorem raised_verified {x : Exchange} {rs : List Response} {e : Failure}
    (h : verified x rs = .error e) : Raised e [] := by
  unfold verified at h
  cases hp : payload rs with
  | error e' =>
    rw [hp] at h
    cases h
    exact raised_payload hp
  | ok text =>
    rw [hp] at h
    simp only [bind, Except.bind, Exchange.verify] at h
    split at h
    · cases h
      exact .denied _ rfl
    · split at h
      · cases h
      · cases h
        exact .denied _ rfl

theorem tells_digestLogin : Tells Raised digestLogin := by
  apply tells_bind (tells_bound .unbound)
  intro a
  apply tells_bind (tells_settle fun _ => raised_credentials)
  rintro ⟨username, password⟩
  apply tells_bind (tells_demand .unbound)
  intro k
  apply tells_bind (tells_record _ rfl)
  intro _
  apply tells_bind ((tells_run _ _).imp fun _ _ => .talk)
  intro rs
  apply tells_bind (tells_settle fun _ => raised_challenged)
  intro x
  apply tells_bind ((tells_resume _ _).imp fun _ _ => .talk)
  intro rs
  apply tells_bind (tells_settle fun _ => raised_verified)
  intro _
  apply tells_bind ((tells_resume _ _).imp fun _ _ => .talk)
  intro rs
  exact tells_ite (tells_pure _) (tells_throw .unfinished)

/-- Once a login has failed and it is known to be one, its failure is reported as that
of the credentials if it is. -/
theorem tells_authenticate : Tells Pending authenticate := by
  apply tells_bind tells_session
  intro s₀ s k hk
  have login : Tells Raised (if s₀.capabilities.has digestOffer then digestLogin else plainLogin) :=
    tells_ite tells_digestLogin tells_plainLogin
  refine ends_bind.2 (ends_attempt.2 ((login s k hk).imp_error ?_))
  rintro e t ⟨hs, raised, ht, told⟩
  have more : ∀ {h : Health} {u : Scene}, Adds k t [h] u → Adds k s (hs ++ [h]) u := by
    rintro h u ⟨hu, added⟩
    exact ⟨hu, by rw [added, told, List.append_assoc]⟩
  cases raised with
  | noCredentials =>
    apply ends_bind.2
    apply ends_report ht
    intro u adds
    exact ⟨_, rfl, more adds⟩
  | talk talk =>
    cases talk with
    | refused r =>
      dsimp only
      by_cases credentials : r.ofCredentials = true
      · rw [if_pos credentials]
        apply ends_bind.2
        apply ends_report ht
        intro u adds
        exact ⟨_, rfl, more adds⟩
      · rw [if_neg credentials]
        exact ⟨_, rfl, ht, told⟩
    | _ => exact ⟨_, rfl, ht, told⟩
  | denied d own =>
    have untold : Pending (.denied d) [] := by
      cases d with
      | refused r => cases own
      | _ => rfl
    exact ⟨_, untold, ht, told⟩
  | _ => exact ⟨_, rfl, ht, told⟩

theorem tells_converse : Tells Pending converse := by
  apply tells_bind tells_greet
  intro _
  apply tells_bind tells_discover
  intro _
  apply tells_bind tells_encrypt
  intro _
  exact tells_bind (tells_setPhase _) fun _ => tells_authenticate

/-- To ask for a link and to establish it is nothing to report, nor is it where it fails. -/
theorem tells_dial : Tells Pending dial := by
  intro s k hk
  have quiet : ∀ e ∈ [Act.dial, Act.establish].map (Event.mk k), e.act.isQuiet := by
    simp [Act.isQuiet]
  rw [Ends, dial_scene hk]
  cases (s.world.dial k).1.openFault with
  | some f => exact ⟨[], rfl, hk, by simpa using Scene.told_quiet k _ rfl quiet⟩
  | none =>
    have log : ((freshStand s k).scene (base s k) k).world.log =
        s.world.log ++ [Act.dial, Act.establish].map (Event.mk k) := by
      simp [Stand.scene, freshStand]
    exact ⟨rfl, by simpa using Scene.told_quiet k _ log quiet⟩

theorem tells_establish : Tells Pending establish := by
  rw [establish_eq]
  apply tells_bind (tells_setPhase _)
  intro _
  exact tells_bind tells_dial fun _ => tells_converse

/-- What the end of an attempt adds are the failures of the link. -/
theorem reports_late (e : Failure) :
    (if e.isOfLink then [] else e.reports) ++ e.lateReport?.toList = e.reports := by
  cases e with
  | breach b => cases b <;> rfl
  | denied d => cases d <;> rfl
  | _ => rfl

/-- All that is reported of an attempt is what its failure calls for. -/
theorem attemptOpening_adds {s : Scene} (hk : s.session.account = some k) :
    Ends attemptOpening s (fun _ t => Adds k s [] t) (fun e t => Adds k s e.reports t) := by
  rw [attemptOpening_eq]
  refine ends_bind.2 (ends_attempt.2 ((tells_establish s k hk).imp ?_ ?_))
  · rintro _ t ⟨ht, told⟩
    exact ⟨ht, told⟩
  · rintro e t ⟨hs, rfl, ht, told⟩
    rw [Ends, conclude_error, ht]
    have late := reports_late e
    cases hr : e.lateReport? with
    | none =>
      rw [hr, Option.toList_none, List.append_nil] at late
      exact ⟨ht, by rw [← late]; exact told⟩
    | some h =>
      rw [hr, Option.toList_some] at late
      refine ⟨ht, ?_⟩
      rw [← late, ← List.append_assoc, ← told]
      exact t.told_report k h

/-- To take down an old link first adds nothing to what is reported. -/
theorem connect_adds {s : Scene} (hk : s.session.account = some k)
    (idle : isReady s.session = false) :
    Ends connect s (fun _ t => Adds k s [] t) (fun e t => Adds k s e.reports t) := by
  have told : (cleared s).told k = s.told k := by
    apply Scene.told_quiet k (closing s) rfl
    unfold closing
    split
    · simp [Act.isQuiet]
    · simp
  rw [Ends, connect_eq hk idle]
  refine (attemptOpening_adds (s := cleared s) (by simpa using hk)).imp ?_ ?_
  · rintro _ t ⟨ht, adds⟩
    exact ⟨ht, by rw [adds, told]⟩
  · rintro e t ⟨ht, adds⟩
    exact ⟨ht, by rw [adds, told]⟩

end Op

namespace Opening

/-- An attempt that succeeds reports nothing. What one that fails has reported depends
on its failure alone, and what the failure says about the health of the link is the
last of it exactly if the failure is none of those that go untold. -/
theorem connect_reports {s : Scene} {k : Nat} (bound : s.session.account = some k)
    (idle : Op.isReady s.session = false) :
    Op.Ends Op.connect s (fun _ t => t.told k = s.told k)
      (fun e t => t.told k = s.told k ++ e.reports ∧
        ((∀ h, e.health? = some h → e.reports.getLast? = some h) ↔ e.isUntold = false)) := by
  refine (Op.connect_adds bound idle).imp ?_ ?_
  · rintro _ t ⟨-, adds⟩
    simpa using adds
  · rintro e t ⟨-, adds⟩
    exact ⟨adds, e.reports_iff⟩

/-- A server that turns a user down. -/
def unwelcoming : String :=
  "* OK hello\r\n1 OK done\r\n2 NO [AUTHENTICATIONFAILED] who are you\r\n"

/-- The owner of the account is told that a user was turned down, and of the credentials last. -/
theorem connect_unwelcoming : ∃ e t, Op.connect (sampleScene unwelcoming) = .error e t ∧
    e.health? = some .badConfiguration ∧ t.told 0 = [.serverError, .badConfiguration] := by
  have fails : Op.Ends Op.connect (sampleScene unwelcoming) (fun _ _ => False) fun e _ =>
      e.health? = some .badConfiguration ∧ e.reports = [.serverError, .badConfiguration] := by
    decide +kernel
  obtain ⟨e, t, h, health, reports⟩ := fails.fails
  have told := (connect_reports (s := sampleScene unwelcoming) (k := 0) rfl rfl).of_error h
  rw [reports] at told
  exact ⟨e, t, h, health, told.1⟩

/-- A server that answers the first command with a line that is no response. -/
def garbled : String := "* OK hello\r\nwhat\r\n"

/-- A line that is no response is a failure of the server, but nobody is told of it. -/
theorem connect_garbled : ∃ e t, Op.connect (sampleScene garbled) = .error e t ∧
    e = .breach (.unreadable "what") ∧ e.health? = some .serverError ∧ t.told 0 = [] :=
  Op.Ends.fails (by decide +kernel)

end Opening

end ImapSession
