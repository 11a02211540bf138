import ImapSession.Proofs.Locality
import ImapSession.Proofs.Reached

/-!
Opening a session again. What the session did before, and how it failed, is nowhere to
be seen in the next attempt: it is the same as that of a session that was just bound to
the account. All that an old session can still have is a login command, which is the one
the account makes, and an offer of capabilities, which is gone with the first answer to
the query for them.
-/
namespace ImapSession

namespace Op

variable {a : Account} {k : Nat} {x : Stand}

/-- The first part of an opening, up to the first query for the capabilities. -/
def query : Op Unit := do
  setPhase .connecting
  dial
  greet
  discover

/-- What is left to do of an opening when this query was answered. -/
def afterQuery : Op Unit := do
  encrypt
  setPhase .authenticating
  authenticate

theorem establish_query : establish = (do query; afterQuery) := by
  simp only [establish, query, afterQuery, bind_assoc]

theorem blind_afterQuery : Blind a k afterQuery := by
  apply blind_bind blind_encrypt
  intro _
  exact blind_bind (blind_setPhase _) fun _ => blind_authenticate

/-- What the greeting does to a session has nothing to do with the capabilities it knows
and the login command it has kept. -/
theorem greet_apart (x : Stand) : ∃ r, ∃ y : Stand, y.wire.link.owner = x.wire.link.owner ∧
    ∀ b c q, greet ({ x with capabilities := c, phrase := q }.scene b k) =
      ending r ({ y with capabilities := c, phrase := q }.scene b k) := by
  rcases hr : x.wire.reading Framer.next with ⟨outcome, w⟩
  have owner : w.link.owner = x.wire.link.owner := by
    have := Wire.owner_reading Framer.next x.wire
    rwa [hr] at this
  have made : ∀ b c q, read ({ x with capabilities := c, phrase := q }.scene b k) =
      ending outcome ({ x with wire := w, capabilities := c, phrase := q }.scene b k) := by
    intro b c q
    rw [read_scene, hr]
  cases outcome with
  | error e => exact ⟨.error e, { x with wire := w }, owner, fun b c q => bind_error (made b c q)⟩
  | ok r =>
    by_cases welcome : (r.isUntagged && r.isOk) = true
    · refine ⟨.ok (), { x with wire := w, phase := .greeted }, owner, fun b c q => ?_⟩
      rw [greet, bind_ok (made b c q), if_pos welcome]
      rfl
    · refine ⟨.error (.breach (.greeting r.shown)), { x with wire := w }.did (.report .serverError),
        owner, fun b c q => ?_⟩
      rw [greet, bind_ok (made b c q), if_neg welcome, bind_ok (report_scene _)]
      rfl

/-- Two sessions that have got the same link are told the same and do the same, though
they may know other capabilities at first and have kept a login command or not. -/
theorem converse_apart (c : Capabilities) (q : Option String) (owned : x.wire.link.owner = k)
    (kept : a.Keeps x.phrase) (kept' : a.Keeps q) :
    ∃ r, ∃ y : Stand, ∃ c' q', ∀ b b' : Scene, b.world.accounts k = a → b'.world.accounts k = a →
      converse (x.scene b k) = ending r (y.scene b k) ∧
      converse ({ x with capabilities := c, phrase := q }.scene b' k) =
        ending r ({ y with capabilities := c', phrase := q' }.scene b' k) ∧
      (succeeded ((do greet; discover) (x.scene b k)) → c' = y.capabilities) := by
  obtain ⟨outcome, y, owner, greeted⟩ := greet_apart (k := k) x
  have first := fun b => greeted b x.capabilities x.phrase
  have second := fun b => greeted b c q
  cases outcome with
  | error e =>
    refine ⟨.error e, { y with capabilities := x.capabilities, phrase := x.phrase }, c, q,
      fun b b' _ _ => ⟨bind_error (first b), bind_error (second b'), ?_⟩⟩
    rw [bind_error (first b)]
    intro h
    cases h
  | ok =>
    have owned' : y.wire.link.owner = k := owner.trans owned
    let h := y.wire.use (.command (y.tag + 1) Capabilities.word false)
    have asked := fun (b : Scene) (account : b.world.accounts k = a) c q =>
      discover_scene (x := { y with capabilities := c, phrase := q }) owned' account
    dsimp only at asked
    cases hans : h.answer with
    | error e =>
      rw [hans] at asked
      refine ⟨.error e, { y.drew.heard h with capabilities := x.capabilities, phrase := x.phrase },
        c, q, fun b b' account account' => ⟨?_, ?_, ?_⟩⟩
      · exact (bind_ok (first b)).trans (bind_error (asked b account _ _))
      · exact (bind_ok (second b')).trans (bind_error (asked b' account' _ _))
      · rw [bind_ok (first b), asked b account]
        intro answered
        cases answered
    | ok rs =>
      rw [hans] at asked
      let known : Stand := { y.drew.heard h with
        capabilities := .ofResponses rs a.disabled, phase := .capabilitiesKnown, phrase := x.phrase }
      have twin : known.Twin a { known with phrase := q } := ⟨q, rfl, .inr ⟨kept, kept'⟩⟩
      obtain ⟨r, z, _, ⟨q', rfl, -⟩, -, made⟩ :=
        blind_afterQuery known _ twin ((Wire.owner_use y.wire _).trans owned')
      refine ⟨r, z, z.capabilities, q', fun b b' account account' => ⟨?_, ?_, fun _ => rfl⟩⟩
      · exact (bind_ok (first b)).trans ((bind_ok (asked b account _ _)).trans (made b account).1)
      · exact (bind_ok (second b')).trans
          ((bind_ok (asked b' account' _ _)).trans (made b' account').2)

end Op

namespace Opening

open Op

variable {k : Nat} {s s' t t' : Scene} {log log' : List Event}

/-- Two sessions are about to be opened, both without a link, on the same account, with
the same tag to go on from and the same link to be got. -/
structure Level (k : Nat) (s s' : Scene) : Prop where
  bound : s.session.account = some k ∧ s'.session.account = some k
  unlinked : s.session.link = none ∧ s'.session.link = none
  unread : s.session.framer = none ∧ s'.session.framer = none
  account : s'.world.accounts k = s.world.accounts k
  tag : lastTag s' = lastTag s
  dialled : (s'.world.dial k).1 = (s.world.dial k).1
  kept : (s.world.accounts k).Keeps s.session.loginPhrase ∧
    (s.world.accounts k).Keeps s'.session.loginPhrase

/-- Two sessions did the same since the logs stood at `log` and `log'`, and have come to
the same. -/
structure Agree (k : Nat) (log log' : List Event) (t t' : Scene) : Prop where
  bound : t.session.account = some k ∧ t'.session.account = some k
  link : t'.session.link = t.session.link
  framer : t'.session.framer = t.session.framer
  phase : t'.session.phase = t.session.phase
  tag : lastTag t' = lastTag t
  acts : ∃ acts : List Act, t.world.log = log ++ acts.map (Event.mk k) ∧
    t'.world.log = log' ++ acts.map (Event.mk k)

theorem conclude_agree (h : Agree k log log' t t') (r : Except Failure Unit) :
    ∃ u u', conclude r t = ending r u ∧ conclude r t' = ending r u' ∧ Agree k log log' u u' ∧
      u.session.capabilities = t.session.capabilities ∧
      u'.session.capabilities = t'.session.capabilities := by
  obtain ⟨acts, hlog, hlog'⟩ := h.acts
  refine ⟨_, _, conclude_bound h.bound.1 r, conclude_bound h.bound.2 r, ?_, rfl, rfl⟩
  refine { h with
    framer := congrArg (Option.map fun _ => Framer.empty) h.framer
    phase := rfl
    acts := ⟨acts ++ lateActs r, ?_, ?_⟩ }
  · rw [hlog, List.map_append, List.append_assoc]
  · rw [hlog', List.map_append, List.append_assoc]

/-- The parts of two stands that are the same, in whatever scenes. -/
theorem agree_scenes (x : Stand) (c : Capabilities) (q : Option String) (b b' : Scene) :
    Agree k b.world.log b'.world.log (x.scene b k)
      ({ x with capabilities := c, phrase := q }.scene b' k) := by
  refine ⟨⟨rfl, rfl⟩, rfl, rfl, rfl, ?_, x.acts, rfl, rfl⟩
  rw [lastTag_scene, lastTag_scene]

/-- Up to the end of the login, the two do the same. -/
theorem establish_agree (level : Level k s s') : ∃ r t t', establish s = ending r t ∧
    establish s' = ending r t' ∧ Agree k s.world.log s'.world.log t t' ∧
    (succeeded (query s) → t'.session.capabilities = t.session.capabilities) := by
  let s₁ : Scene := { s with session := { s.session with phase := .connecting } }
  let s₁' : Scene := { s' with session := { s'.session with phase := .connecting } }
  have hd := dial_scene (s := s₁) level.bound.1
  have hd' := dial_scene (s := s₁') level.bound.2
  have same : (s₁'.world.dial k).1 = (s₁.world.dial k).1 := level.dialled
  rw [same] at hd'
  have starts : establish s = (dial >>= fun _ => converse) s₁ := rfl
  have starts' : establish s' = (dial >>= fun _ => converse) s₁' := rfl
  have asks : query s = (dial >>= fun _ => do greet; discover) s₁ := rfl
  rw [starts, starts', asks]
  cases hf : (s₁.world.dial k).1.openFault with
  | some f =>
    rw [hf] at hd hd'
    refine ⟨.error (.link f), _, _, bind_error hd, bind_error hd', ?_, ?_⟩
    · refine ⟨level.bound, ?_, ?_, rfl, ?_, [.dial, .establish], rfl, rfl⟩
      · exact level.unlinked.2.trans level.unlinked.1.symm
      · exact level.unread.2.trans level.unread.1.symm
      · simpa [lastTag] using level.tag
    · rw [bind_error hd]
      intro answered
      cases answered
  | none =>
    rw [hf] at hd hd'
    have fresh : freshStand s₁' k = { freshStand s₁ k with
        capabilities := s'.session.capabilities, phrase := s'.session.loginPhrase } := by
      have tag : s₁'.world.tags s₁'.session.counter = s₁.world.tags s₁.session.counter := level.tag
      rw [freshStand, newWire, same, tag]
      rfl
    rw [fresh] at hd'
    obtain ⟨r, y, c, q, made⟩ := converse_apart (x := freshStand s₁ k) s'.session.capabilities
      s'.session.loginPhrase (owner_dial s.world k) level.kept.1 level.kept.2
    obtain ⟨ended, ended', offers⟩ := made (base s₁ k) (base s₁' k) (by rw [accounts_base])
      (by rw [accounts_base]; exact level.account)
    have agree := agree_scenes (k := k) y c q (base s₁ k) (base s₁' k)
    rw [log_base, log_base] at agree
    refine ⟨r, _, _, (bind_ok hd).trans ended, (bind_ok hd').trans ended', agree, ?_⟩
    rw [bind_ok hd]
    exact offers

/-- An attempt ends in the same way for both. The capabilities may be different only if no query
for them was answered. -/
theorem attemptOpening_agree (level : Level k s s') : ∃ r t t', attemptOpening s = ending r t ∧
    attemptOpening s' = ending r t' ∧ Agree k s.world.log s'.world.log t t' ∧
    (t'.session.capabilities = t.session.capabilities ∨
      ∃ e u, query s = .error e u ∧ r = .error e) := by
  obtain ⟨r, t, t', h, h', agree, offers⟩ := establish_agree level
  obtain ⟨u, u', hu, hu', concluded, same, same'⟩ := conclude_agree agree r
  rw [attemptOpening_eq, bind_ok (attempt_ending h), bind_ok (attempt_ending h')]
  refine ⟨r, u, u', hu, hu', concluded, ?_⟩
  cases hq : query s with
  | ok _ v =>
    have answered : succeeded (query s) := by rw [hq]; rfl
    exact .inl (by rw [same, same', offers answered])
  | error e v =>
    rw [establish_query, bind_error hq] at h
    cases r with
    | ok => cases h
    | error e' =>
      cases h
      exact .inr ⟨e, _, rfl, rfl⟩

/-- Once an old link is taken down nothing of it is left. -/
theorem cleared_unlinked (standing : Standing s) :
    (cleared s).session.link = none ∧ (cleared s).session.framer = none := by
  unfold cleared
  by_cases linked : s.session.link.isSome = true
  · simp [linked]
  · have paired := standing.paired
    have unlinked : s.session.link = none := by simpa using linked
    rw [unlinked] at paired
    have unread : s.session.framer = none := by simpa using paired
    simp [unlinked, unread]

theorem level_cleared {w : World} (standing : Standing s) (bound : s.session.account = some k)
    (account : w.accounts k = s.world.accounts k)
    (tag : w.tags (w.accounts k).counter = lastTag s)
    (dialled : (w.dial k).1 = (s.world.dial k).1) :
    Level k (cleared s) ⟨.bound w k, w⟩ := by
  obtain ⟨unlinked, unread⟩ := cleared_unlinked standing
  refine ⟨⟨by simpa using bound, rfl⟩, ⟨unlinked, rfl⟩, ⟨unread, rfl⟩, account, ?_,
    dialled.trans (dial_cleared s k).symm, ?_, Account.keeps_none _⟩
  · rw [lastTag_cleared]
    exact tag
  · intro q hq
    rw [cleared_loginPhrase] at hq
    exact standing.phrase k q bound hq

/-- Whatever a session went through, to open it is the same as to open a session that was
just bound to the account, with the same tag to go on from and the same link to be got:
both end with the same outcome and in the same state, and all that the one does, from when
its old link is taken down, the other does as well. What capabilities are known is the
same too, unless the attempt breaks off before the first query for them was answered. -/
theorem connect_afresh {w : World} (reached : Reached s) (bound : s.session.account = some k)
    (idle : isReady s.session = false) (account : w.accounts k = s.world.accounts k)
    (tag : w.tags (w.accounts k).counter = lastTag s)
    (dialled : (w.dial k).1 = (s.world.dial k).1) :
    ∃ r t t', connect s = ending r t ∧ connect ⟨.bound w k, w⟩ = ending r t' ∧
      Agree k (s.world.log ++ closing s) w.log t t' ∧
      (t'.session.capabilities = t.session.capabilities ∨
        ∃ e u, query (cleared s) = .error e u ∧ r = .error e) := by
  have level := level_cleared reached.standing bound account tag dialled
  have attempt : connect ⟨.bound w k, w⟩ = attemptOpening ⟨.bound w k, w⟩ := by
    rw [connect_eq (k := k) rfl rfl]
    simp [cleared, closing, Session.bound]
  rw [connect_eq bound idle, attempt]
  exact attemptOpening_agree level

/-- A world whose first link breaks off in the middle of a line, and whose second does not. -/
def secondWorld : World where
  accounts := (sampleWorld "").accounts
  supplies := fun _ => Server.supply [⟨Utf8.encode "* OK hello\r\n* CAPABILITY STAR", [], false⟩,
    ⟨Utf8.encode "* OK hello\r\n* CAPABILITY IMAP4rev1\r\n2 OK done\r\n3 OK in\r\n", [], false⟩]
  tags := World.noTags
  log := []

/-- A session that failed on the first link is opened on the second as if it were new. -/
theorem connect_afresh_failed :
    let s := (Request.serve .connect ⟨.bound secondWorld 0, secondWorld⟩).2
    s.session.phase = .failed ∧ s.session.link.isSome ∧ ∃ t t', connect s = .ok () t ∧
      connect ⟨.bound s.world 0, s.world⟩ = .ok () t' ∧
      Agree 0 (s.world.log ++ closing s) s.world.log t t' ∧
      t'.session.capabilities = t.session.capabilities := by
  intro s
  have facts : s.session.phase = .failed ∧ s.session.link.isSome ∧
      s.session.account = some 0 := by decide +kernel
  obtain ⟨failed, linked, bound⟩ := facts
  have opens : Ends connect s (fun _ _ => True) fun _ _ => False := by decide +kernel
  obtain ⟨_, u, opened, -⟩ := opens.succeeds
  have reached : Reached s := .served (.bound secondWorld 0) .connect
  have tag : s.world.tags (s.world.accounts 0).counter = lastTag s := by
    rw [lastTag, reached.standing.counter 0 bound]
  obtain ⟨r, t, t', h, h', agree, offers⟩ :=
    connect_afresh reached bound (by simp [isReady, failed]) rfl tag rfl
  cases r with
  | error e => cases opened.symm.trans h
  | ok =>
    refine ⟨failed, linked, t, t', h, h', agree, ?_⟩
    rcases offers with same | ⟨e, v, -, broken⟩
    · exact same
    · cases broken

end Opening

end ImapSession
