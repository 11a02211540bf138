import ImapSession.Proofs.Protocol
import ImapSession.Proofs.Stand

/-!
The session that opens follows the protocol. Every step of the opening is taken
at one stage and ends at the next, or it breaks off; and what is recorded on the
way is what the turns of the run leave behind.
-/
namespace ImapSession.Opening

variable {a : Account} {t : UInt64} {w : Wire} {b : Scene} {k : Nat} {x : Stand} {σ : Stage}
  {inLogin : Bool}

/-- These turns were made on the link since it was established, and the record
holds of them what a server could notice. -/
structure Track (w : Wire) (turns : List Turn) (x : Stand) : Prop where
  plays : w.Plays turns x.wire
  noticed : x.acts.filter Act.onLink = .establish :: turns.flatMap Turn.noticed

/-- The session is at a stage of the protocol. -/
structure Along (a : Account) (t : UInt64) (w : Wire) (k : Nat) (σ : Stage) (x : Stand) : Prop where
  run : ∃ turns, Follows a t turns σ ∧ Track w turns x
  owned : x.wire.link.owner = k
  drawn : σ.Drawn t x.tag
  offers : σ.Offers x.capabilities
  phrase : ∀ q, x.phrase = some q → a.phrase = .ok q

def Broken (a : Account) (t : UInt64) (w : Wire) (x : Stand) : Prop :=
  ∃ turns σ e, Breaks a t turns σ e ∧ Track w turns x ∧ σ.Offers x.capabilities

/-- The run broke off with this failure, in the login or before it. -/
def BrokenBy (a : Account) (t : UInt64) (w : Wire) (inLogin : Bool) (e : Failure) (x : Stand) :
    Prop :=
  ∃ turns σ, Breaks a t turns σ e ∧ Track w turns x ∧ σ.Offers x.capabilities ∧
    σ.logsIn = inLogin

/-- How a failure is passed on: in the login, a refusal that concerns the credentials becomes a
denial. -/
def verdict : Bool → Failure → Failure
  | true, .refused r => if r.ofCredentials then .denied (.refused r) else .refused r
  | _, e => e

/-- The session broke off its run of the protocol, and this failure was passed on. -/
def BrokenOff (a : Account) (t : UInt64) (w : Wire) (e : Failure) (x : Stand) : Prop :=
  ∃ inLogin e₀, BrokenBy a t w inLogin e₀ x ∧ e = verdict inLogin e₀

theorem BrokenOff.broken {e : Failure} (h : BrokenOff a t w e x) : Broken a t w x := by
  obtain ⟨inLogin, e₀, ⟨turns, σ, breaks, track, offers, -⟩, -⟩ := h
  exact ⟨turns, σ, e₀, breaks, track, offers⟩

/-- Before the login, a failure is passed on as it is. -/
theorem BrokenBy.early {e : Failure} (h : BrokenBy a t w false e x) : BrokenOff a t w e x :=
  ⟨false, e, h, rfl⟩

theorem Track.turn {turns : List Turn} {y : Stand} (track : Track w turns x) (u : Use)
    (wire : y.wire = (x.wire.use u).wire)
    (acts : y.acts.filter Act.onLink =
      x.acts.filter Act.onLink ++ (x.wire.use u).acts.filter Act.onLink) :
    Track w (turns ++ [x.wire.turn u]) y where
  plays := by
    rw [wire]
    exact .turn track.plays u
  noticed := by
    rw [acts, track.noticed]
    simp [Turn.noticed, Wire.turn]

def Stands (b : Scene) (k : Nat) (P : Stand → Prop) (s : Scene) : Prop := ∃ x, s = x.scene b k ∧ P x

/-- A use with an answer that will do takes the session to the next stage. -/
theorem Along.turn {σ' : Stage} {y : Stand} (h : Along a t w k σ x) {u : Use}
    (next : due a t σ = .use u) (judged : judge a σ (x.wire.turn u) = .ok σ')
    (wire : y.wire = (x.wire.use u).wire)
    (acts : y.acts.filter Act.onLink =
      x.acts.filter Act.onLink ++ (x.wire.use u).acts.filter Act.onLink)
    (drawn : σ'.Drawn t y.tag) (offers : σ'.Offers y.capabilities)
    (phrase : ∀ q, y.phrase = some q → a.phrase = .ok q) : Along a t w k σ' y where
  run := by
    obtain ⟨turns, follows, track⟩ := h.run
    exact ⟨_, follows.turn _ next judged, track.turn u wire acts⟩
  owned := by simp [wire, h.owned]
  drawn
  offers
  phrase

/-- What the link has no part in leaves the session where it is. -/
theorem Along.apart {y : Stand} (h : Along a t w k σ x) (wire : y.wire = x.wire)
    (acts : y.acts.filter Act.onLink = x.acts.filter Act.onLink) (tag : y.tag = x.tag)
    (offers : y.capabilities = x.capabilities) (phrase : ∀ q, y.phrase = some q → a.phrase = .ok q) :
    Along a t w k σ y where
  run := by
    obtain ⟨turns, follows, track⟩ := h.run
    exact ⟨turns, follows, wire ▸ track.plays, acts.trans track.noticed⟩
  owned := by rw [wire, h.owned]
  drawn := tag ▸ h.drawn
  offers := offers ▸ h.offers
  phrase

/-- A use with no answer, or with one that will not do, breaks the run off. -/
theorem Along.broken {e : Failure} {y : Stand} (h : Along a t w k σ x) {u : Use}
    (next : due a t σ = .use u) (judged : judge a σ (x.wire.turn u) = .error e)
    (wire : y.wire = (x.wire.use u).wire)
    (acts : y.acts.filter Act.onLink =
      x.acts.filter Act.onLink ++ (x.wire.use u).acts.filter Act.onLink)
    (offers : σ.Offers y.capabilities) (stage : σ.logsIn = inLogin) :
    BrokenBy a t w inLogin e y := by
  obtain ⟨turns, follows, track⟩ := h.run
  exact ⟨_, σ, .turn follows _ next judged, track.turn u wire acts, offers, stage⟩

/-- A report leaves a run that broke off as it was. -/
theorem BrokenBy.report {e : Failure} (h : BrokenBy a t w inLogin e x) (health : Health) :
    BrokenBy a t w inLogin e (x.did (.report health)) := by
  obtain ⟨turns, σ, breaks, track, offers, stage⟩ := h
  refine ⟨turns, σ, breaks, ⟨track.plays, ?_⟩, offers, stage⟩
  rw [← track.noticed]
  simp [Stand.did, Act.onLink]

open Op

theorem greet_along (h : Along a t w k .dialled x) :
    Ends greet (x.scene b k) (fun _ => Stands b k (Along a t w k .greeted))
      (fun e => Stands b k (BrokenBy a t w false e)) := by
  rcases hr : x.wire.reading Framer.next with ⟨result, v⟩
  have hread : read (x.scene b k) = ending result ({ x with wire := v }.scene b k) := by
    rw [read_scene, hr]
  have hused : x.wire.use .greeting = ⟨[], result.map fun r => [r], v⟩ := by
    simp only [Wire.use, Wire.greeting, hr]
  cases result with
  | error e =>
    rw [greet, ends_bind_error hread]
    refine ⟨_, rfl, h.broken (u := .greeting) rfl ?_ ?_ ?_ trivial rfl⟩
    · exact judge_error (by simp [Wire.turn, hused, Except.map])
    · simp [hused]
    · simp [hused]
  | ok r =>
    rw [greet, ends_bind_ok hread]
    have hturn : (x.wire.turn .greeting).answer = .ok [r] := by
      simp [Wire.turn, hused, Except.map]
    by_cases good : (r.isUntagged && r.isOk) = true
    · rw [if_pos good]
      refine ⟨{ x with wire := v, phase := .greeted }, rfl,
        h.turn (u := .greeting) rfl ?_ ?_ ?_ h.drawn trivial h.phrase⟩
      · rw [judge_ok hturn]
        simp [accept, good]
      · simp [hused]
      · simp [hused]
    · rw [if_neg good]
      rw [ends_bind_ok (report_scene _)]
      refine ⟨_, rfl, h.broken (u := .greeting) rfl ?_ ?_ ?_ trivial rfl⟩
      · rw [judge_ok hturn]
        simp [accept, good]
      · simp [hused, Stand.did]
      · simp [hused, Stand.did, Act.onLink]

/-- The turn that is due is made; without an answer the run breaks off, and with
one the client goes on to see what it says. -/
theorem ends_due {α : Type} {op : Op (List Response)} {f : List Response → Op α} {u : Use} {y : Stand}
    {good : α → Scene → Prop} (h : Along a t w k σ x) (next : due a t σ = .use u)
    (made : op (x.scene b k) = ending (x.wire.use u).answer ((y.heard (x.wire.use u)).scene b k))
    (acts : y.acts.filter Act.onLink = x.acts.filter Act.onLink)
    (offers : y.capabilities = x.capabilities) (stage : σ.logsIn = inLogin)
    (answered : ∀ rs, (x.wire.turn u).answer = .ok rs →
      Ends (f rs) ((y.heard (x.wire.use u)).scene b k) good
        (fun e => Stands b k (BrokenBy a t w inLogin e))) :
    Ends (op >>= f) (x.scene b k) good (fun e => Stands b k (BrokenBy a t w inLogin e)) := by
  cases hans : (x.wire.use u).answer with
  | ok rs =>
    rw [hans] at made
    rw [ends_bind_ok made]
    exact answered rs hans
  | error e =>
    rw [hans] at made
    rw [ends_bind_error made]
    refine ⟨_, rfl, h.broken next ?_ rfl ?_ ?_ stage⟩
    · exact judge_error hans
    · simp [Stand.heard, acts]
    · rw [Stand.heard, offers]
      exact h.offers

theorem discover_along (isSecured : Bool) (h : Along a t w k σ x)
    (account : b.world.accounts k = a)
    (next : due a t σ = .use (.command (x.tag + 1) Capabilities.word false))
    (learns : ∀ rs, accept a σ rs = .ok (.known (.ofResponses rs a.disabled) isSecured))
    (tag : x.tag + 1 = loginTag t isSecured) (early : σ.logsIn = false) :
    Ends discover (x.scene b k) (fun _ => Stands b k fun y => ∃ c, Along a t w k (.known c isSecured) y)
      (fun e => Stands b k (BrokenBy a t w false e)) := by
  refine ends_due h next (run_scene h.owned) rfl rfl early fun rs answer => ?_
  refine ⟨{ x.drew.heard (x.wire.use (.command (x.tag + 1) Capabilities.word false)) with
    capabilities := .ofResponses rs a.disabled, phase := .capabilitiesKnown }, ?_, .ofResponses rs a.disabled,
    h.turn next ?_ rfl ?_ tag rfl h.phrase⟩
  · rw [← account]
    rfl
  · rw [judge_ok answer]
    exact learns rs
  · simp [Stand.heard, Stand.drew]

theorem secured_along {c : Capabilities} (h : Along a t w k (.agreed c) x) :
    Ends (do secureLink; setSession fun s => { s with framer := some .empty }) (x.scene b k)
      (fun _ => Stands b k (Along a t w k (.secured c)))
      (fun e => Stands b k (BrokenBy a t w false e)) := by
  have made := secured_scene (b := b) h.owned
  rw [Ends, made]
  cases hans : x.wire.secure.answer with
  | ok rs =>
    refine ⟨_, rfl, h.turn (u := .secure) rfl ?_ rfl ?_ h.drawn h.offers h.phrase⟩
    · rw [judge_ok hans]
      rfl
    · simp [Stand.heard, Wire.use]
  | error e =>
    refine ⟨_, rfl, h.broken (u := .secure) rfl ?_ rfl ?_ h.offers rfl⟩
    · exact judge_error hans
    · simp [Stand.heard, Wire.use]

theorem add_one_add_one (t : UInt64) : t + 1 + 1 = t + 2 := by
  rw [UInt64.add_assoc]
  rfl

theorem add_two_add_one (t : UInt64) : t + 2 + 1 = t + 3 := by
  rw [UInt64.add_assoc]
  rfl

/-- Encryption, where it is on offer, comes before the login. -/
theorem encrypt_along {c : Capabilities} (h : Along a t w k (.known c false) x)
    (account : b.world.accounts k = a) :
    Ends encrypt (x.scene b k)
      (fun _ => Stands b k fun y => ∃ c isSecured, Along a t w k (.known c isSecured) y ∧
        (c.has startTls && !isSecured) = false)
      (fun e => Stands b k (BrokenBy a t w false e)) := by
  have hs : session (x.scene b k) = .ok (x.scene b k).session (x.scene b k) := rfl
  have hc : (x.scene b k).session.capabilities = c := h.offers
  have ht : x.tag = t + 1 := h.drawn
  rw [encrypt, ends_bind_ok hs, hc]
  by_cases offered : c.has startTls = true
  · rw [if_pos offered]
    have hp : setPhase .securing (x.scene b k) =
        .ok () ({ x with phase := .securing }.scene b k) := rfl
    have h' : Along a t w k (.known c false) { x with phase := .securing } :=
      h.apart rfl rfl rfl rfl h.phrase
    have next : due a t (.known c false) = .use (.command (x.tag + 1) startTls false) := by
      rw [ht, add_one_add_one]
      simp [due, offered]
    have early : (Stage.known c false).logsIn = false := by simp [Stage.logsIn, offered]
    rw [ends_bind_ok hp]
    refine ends_due h' next (run_scene h.owned) rfl rfl early fun rs answer => ?_
    have agreed : Along a t w k (.agreed c) ({ x with phase := .securing }.drew.heard
        (x.wire.use (.command (x.tag + 1) startTls false))) := by
      refine h'.turn next ?_ rfl ?_ ?_ h.offers h.phrase
      · rw [judge_ok answer]
        simp [accept, offered]
      · simp [Stand.heard, Stand.drew]
      · exact (congrArg (· + 1) ht).trans (add_one_add_one t)
    rw [← bind_assoc]
    refine (secured_along agreed).bind ?_
    rintro - s ⟨y, rfl, hy⟩
    have hd : y.tag = t + 2 := hy.drawn
    refine (discover_along true hy account ?_ ?_ ?_ rfl).imp_ok ?_
    · rw [hd, add_two_add_one]
      rfl
    · intro rs
      rfl
    · rw [hd, add_two_add_one]
      rfl
    · rintro - s ⟨z, rfl, c', hz⟩
      exact ⟨z, rfl, c', true, hz, by simp⟩
  · rw [if_neg offered]
    exact ⟨x, rfl, c, false, h, by simpa using offered⟩

/-- The login command is the one of the account, kept from before or built now. -/
theorem loginPhrase_scene (account : b.world.accounts k = a)
    (kept : ∀ q, x.phrase = some q → a.phrase = .ok q) :
    loginPhrase (x.scene b k) =
      match a.phrase with
      | .ok q => .ok q ({ x with phrase := some q }.scene b k)
      | .error e => .error e (x.scene b k) := by
  cases hq : x.phrase with
  | some q =>
    rw [kept q hq]
    have hl : (x.scene b k).session.loginPhrase = some q := hq
    have hx : { x with phrase := some q } = x := by rw [← hq]
    simp only [loginPhrase, hl, hx]
  | none =>
    have hl : (x.scene b k).session.loginPhrase = none := hq
    simp only [loginPhrase, hl]
    rw [newPhrase, bind_ok (bound_scene account), Account.phrase]
    cases a.credentials with
    | error e => rfl
    | ok given =>
      obtain ⟨username, password⟩ := given
      cases hp : phrase username password with
      | error e => simp [settle, hp, bind, EStateM.bind, Except.bind]
      | ok q => simp [settle, hp, bind, EStateM.bind, Except.bind, pure, EStateM.pure]; rfl

/-- The plain login is one turn, once there is a command for it. -/
theorem plainLogin_along {c : Capabilities} {isSecured : Bool}
    (h : Along a t w k (.known c isSecured) x) (account : b.world.accounts k = a)
    (settled : (c.has startTls && !isSecured) = false) (plain : c.has digestOffer = false) :
    Ends plainLogin (x.scene b k) (fun _ => Stands b k (Along a t w k (.opened c)))
      (fun e => Stands b k (BrokenBy a t w true e)) := by
  have stage : (Stage.known c isSecured).logsIn = true := by rw [Stage.logsIn, settled]; rfl
  have built := loginPhrase_scene account h.phrase
  cases hq : a.phrase with
  | error e =>
    rw [hq] at built
    rw [plainLogin, ends_bind_error built]
    obtain ⟨turns, follows, track⟩ := h.run
    refine ⟨x, rfl, turns, _, .stopped follows ?_, track, h.offers, stage⟩
    simp [due, settled, login, plain, hq]
  | ok q =>
    rw [hq] at built
    rw [plainLogin, ends_bind_ok built]
    have h' : Along a t w k (.known c isSecured) { x with phrase := some q } :=
      h.apart rfl rfl rfl rfl fun q' hq' => by rw [hq, ← Option.some.inj hq']
    have next : due a t (.known c isSecured) = .use (.command (x.tag + 1) q true) := by
      rw [h.drawn]
      simp [due, settled, login, plain, hq]
    refine ends_due h' next (run_scene h.owned) rfl rfl stage fun rs answer => ?_
    refine ⟨_, rfl, h'.turn next ?_ rfl ?_ trivial h.offers h'.phrase⟩
    · rw [judge_ok answer]
      simp [accept, settled, plain]
    · simp [Stand.heard, Stand.drew]

/-- The last turn of the digest login asks for the completion. -/
theorem complete_along {c : Capabilities} (h : Along a t w k (.proven c) x) :
    Ends (do
        let rs ← resume "" false
        if rs.getLast?.any Response.isCompletion then pure () else throw (.breach .unfinished))
      (x.scene b k) (fun _ => Stands b k (Along a t w k (.opened c)))
      (fun e => Stands b k (BrokenBy a t w true e)) := by
  refine ends_due h (u := .line "" "") rfl (resume_scene h.owned) rfl rfl rfl fun rs answer => ?_
  by_cases completed : rs.getLast?.any Response.isCompletion = true
  · rw [if_pos completed]
    refine ⟨_, rfl, h.turn (u := .line "" "") rfl ?_ rfl ?_ trivial h.offers h.phrase⟩
    · rw [judge_ok answer]
      simp only [accept, if_pos completed]
    · simp [Stand.heard]
  · rw [if_neg completed]
    refine ⟨_, rfl, h.broken (u := .line "" "") rfl ?_ rfl ?_ h.offers rfl⟩
    · rw [judge_ok answer]
      simp only [accept, if_neg completed]
    · simp [Stand.heard]

/-- The client proves its password, and checks the proof that comes back. -/
theorem answer_along {c : Capabilities} {ex : Exchange} (h : Along a t w k (.challenged c ex) x) :
    Ends (do
        let rs ← resume (Exchange.encode ex.answer) true
        settle (verified ex rs)
        let rs ← resume "" false
        if rs.getLast?.any Response.isCompletion then pure () else throw (.breach .unfinished))
      (x.scene b k) (fun _ => Stands b k (Along a t w k (.opened c)))
      (fun e => Stands b k (BrokenBy a t w true e)) := by
  refine ends_due h rfl (resume_scene h.owned) rfl rfl rfl fun rs answer => ?_
  cases hv : verified ex rs with
  | error e =>
    refine ⟨_, rfl, h.broken rfl ?_ rfl ?_ h.offers rfl⟩
    · rw [judge_ok answer]
      simp [accept, hv, Except.map]
    · simp [Stand.heard]
  | ok =>
    have hs : settle (.ok () : Except Failure Unit) ((x.heard (x.wire.use
        (.line (Exchange.encode ex.answer) redacted))).scene b k) = .ok () _ := rfl
    rw [ends_bind_ok hs]
    refine complete_along (h.turn rfl ?_ rfl ?_ trivial h.offers h.phrase)
    · rw [judge_ok answer]
      simp [accept, hv, Except.map]
    · simp [Stand.heard]

/-- The digest login is three turns, and each answer is checked before the next one. -/
theorem digestLogin_along {c : Capabilities} {isSecured : Bool}
    (h : Along a t w k (.known c isSecured) x) (account : b.world.accounts k = a)
    (settled : (c.has startTls && !isSecured) = false) (offered : c.has digestOffer = true) :
    Ends digestLogin (x.scene b k) (fun _ => Stands b k (Along a t w k (.opened c)))
      (fun e => Stands b k (BrokenBy a t w true e)) := by
  have stage : (Stage.known c isSecured).logsIn = true := by rw [Stage.logsIn, settled]; rfl
  rw [digestLogin, ends_bind_ok (bound_scene account)]
  cases hc : a.credentials with
  | error e =>
    obtain ⟨turns, follows, track⟩ := h.run
    refine ⟨x, rfl, turns, _, .stopped follows ?_, track, h.offers, stage⟩
    simp [due, settled, login, offered, hc]
  | ok given =>
    obtain ⟨username, password⟩ := given
    have hk : Op.account (x.scene b k) = .ok k (x.scene b k) := rfl
    have hg : settle (.ok (username, password) : Except Failure _) (x.scene b k) =
        .ok (username, password) (x.scene b k) := rfl
    rw [ends_bind_ok hg, ends_bind_ok hk, ends_bind_ok (record_scene .nonce)]
    have h₁ : Along a t w k (.known c isSecured) (x.did .nonce) :=
      h.apart rfl (by simp [Stand.did, Act.onLink]) rfl rfl h.phrase
    have next : due a t (.known c isSecured) =
        .use (.command ((x.did .nonce).tag + 1) authenticate false) := by
      rw [h₁.drawn]
      simp [due, settled, login, offered, hc]
    refine ends_due h₁ next (run_scene h₁.owned) rfl rfl stage fun rs answer => ?_
    cases hx : challenged a username password rs with
    | error e =>
      refine ⟨_, rfl, h₁.broken next ?_ rfl ?_ h.offers stage⟩
      · rw [judge_ok answer]
        simp [bind, Except.bind, accept, settled, offered, hc, hx]
      · simp [Stand.heard, Stand.drew]
    | ok ex =>
      have hs : settle (.ok ex : Except Failure Exchange) (((x.did .nonce).drew.heard
          ((x.did .nonce).wire.use (.command ((x.did .nonce).tag + 1) authenticate false))).scene
            b k) = .ok ex _ := rfl
      rw [ends_bind_ok hs]
      refine answer_along (h₁.turn next ?_ rfl ?_ trivial h.offers h.phrase)
      · rw [judge_ok answer]
        simp [bind, Except.bind, accept, settled, offered, hc, hx, pure, Except.pure]
      · simp [Stand.heard, Stand.drew]

/-- How a login fails does not change how far it came. -/
theorem authenticate_along {c : Capabilities} {isSecured : Bool}
    (h : Along a t w k (.known c isSecured) x) (account : b.world.accounts k = a)
    (settled : (c.has startTls && !isSecured) = false) :
    Ends Op.authenticate (x.scene b k) (fun _ => Stands b k (Along a t w k (.opened c)))
      (fun e => Stands b k (BrokenOff a t w e)) := by
  have hs : session (x.scene b k) = .ok (x.scene b k).session (x.scene b k) := rfl
  have hc : (x.scene b k).session.capabilities = c := h.offers
  have login : Ends (if c.has digestOffer = true then digestLogin else plainLogin) (x.scene b k)
      (fun _ => Stands b k (Along a t w k (.opened c)))
      (fun e => Stands b k (BrokenBy a t w true e)) := by
    cases offered : c.has digestOffer with
    | true => simpa using digestLogin_along h account settled offered
    | false => simpa using plainLogin_along h account settled offered
  rw [Op.authenticate, ends_bind_ok hs, hc]
  refine ends_bind.2 (ends_attempt.2 (login.imp_error ?_))
  rintro e s ⟨y, rfl, broken⟩
  cases e with
  | refused r =>
    dsimp only
    by_cases credentials : r.ofCredentials = true
    · rw [if_pos credentials, ends_bind_ok (report_scene _)]
      exact ⟨_, rfl, true, _, broken.report _, by rw [verdict, if_pos credentials]⟩
    · rw [if_neg credentials]
      exact ⟨y, rfl, true, _, broken, by rw [verdict, if_neg credentials]⟩
  | noCredentials =>
    dsimp only
    rw [ends_bind_ok (report_scene _)]
    exact ⟨_, rfl, true, _, broken.report _, rfl⟩
  | _ => exact ⟨y, rfl, true, _, broken, rfl⟩

/-- On a link that was just established, the protocol is followed to its end. -/
theorem converse_along (h : Along a t w k .dialled x) (account : b.world.accounts k = a) :
    Ends (do greet; discover; encrypt; setPhase .authenticating; Op.authenticate) (x.scene b k)
      (fun _ => Stands b k fun y => ∃ c, Along a t w k (.opened c) y)
      (fun e => Stands b k (BrokenOff a t w e)) := by
  have early : ∀ e s, Stands b k (BrokenBy a t w false e) s → Stands b k (BrokenOff a t w e) s := by
    rintro e s ⟨y, rfl, broken⟩
    exact ⟨y, rfl, broken.early⟩
  refine ((greet_along h).imp_error early).bind ?_
  rintro - s ⟨y, rfl, greeted⟩
  have tag : y.tag = t := greeted.drawn
  refine ((discover_along false greeted account ?_ (fun _ => rfl) ?_ rfl).imp_error early).bind ?_
  · rw [tag]
    rfl
  · rw [tag]
    rfl
  rintro - s ⟨z, rfl, c, known⟩
  refine ((encrypt_along known account).imp_error early).bind ?_
  rintro - s ⟨v, rfl, c', isSecured, known', settled⟩
  have hp : setPhase .authenticating (v.scene b k) =
      .ok () ({ v with phase := .authenticating }.scene b k) := rfl
  rw [ends_bind_ok hp]
  have ready : Along a t w k (.known c' isSecured) { v with phase := .authenticating } :=
    known'.apart rfl rfl rfl rfl known'.phrase
  refine (authenticate_along ready account settled).imp_ok ?_
  rintro - s ⟨u, rfl, opened⟩
  exact ⟨u, rfl, c', opened⟩

end ImapSession.Opening
