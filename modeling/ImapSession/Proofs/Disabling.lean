import ImapSession.Proofs.Connecting
import ImapSession.Proofs.Locality
import ImapSession.Proofs.Pruning
import ImapSession.Server

/-!
Names switched off, and names never offered. A session is opened on an account that has
some names switched off; another one on an account that has none, by a script from which
these names were struck. Both do the same, step by step, and come to the same.
-/
namespace ImapSession

open ImapSession.Stream (Cell tape said)
open Capabilities (Struck Leave)
open Framer (Ahead)

/-- Nobody is welcomed with this. -/
def Unwelcome (t : List Cell) : Prop := ∀ (s : Stream) r, tape s.segments = t →
  (Framer.empty.next s).1 = .ok r → (r.isUntagged && r.isOk) = false

/-- What a server says on a link before that is encrypted, if it ever is: a greeting, and
behind it the answer to the first query, which was struck through in the second script.
Without a welcome nothing is struck. -/
inductive Script (disabled : List String) (names : List String) : List Cell → List Cell → Prop
  | greeted {r : Response} {t t' : List Cell} (whole : r.Whole) (rest : Struck disabled names t t') :
      Script disabled names (said r.raw ++ t) (said r.raw ++ t')
  | unwelcome {t : List Cell} (h : Unwelcome t) : Script disabled names t t

/-- What becomes of a request for encryption, and of the answer to the query behind it. -/
inductive Turned (disabled : List String) : Upgrade → Upgrade → Prop
  | granted {names : List String} {s s' : List Segment}
      (struck : Struck disabled names (tape s) (tape s')) :
      Turned disabled (.granted s) (.granted s')
  | declined (fault : Fault) : Turned disabled (.declined fault) (.declined fault)
  | broken : Turned disabled .broken .broken

namespace Wire

variable {disabled : List String} {k : Nat} {u u' : Upgrade} {w w' : Wire}

theorem secure_closed (closed : w.link.isOpen = false) :
    w.secure = ⟨[], .error (.link w.link.closedFault), w⟩ := by
  simp [secure, Link.secure, closed, Op.upgraded]

theorem secure_granted {segments : List Segment} (opened : w.link.isOpen = true)
    (h : w.link.upgrade = .granted segments) : w.secure = ⟨[.secure], .ok [],
      ⟨{ w.link with isSecure := true, incoming := segments, peer := .mute }, .empty⟩⟩ := by
  simp [secure, Link.secure, opened, h, Op.upgraded]

theorem secure_declined {f : Fault} (opened : w.link.isOpen = true)
    (h : w.link.upgrade = .declined f) : w.secure = ⟨[.secure], .error (.link f), w⟩ := by
  simp [secure, Link.secure, opened, h, Op.upgraded]

theorem secure_broken (opened : w.link.isOpen = true) (h : w.link.upgrade = .broken) :
    w.secure = ⟨[.secure], .error .handshake, { w with link := w.link.sever }⟩ := by
  simp [secure, Link.secure, opened, h, Op.upgraded]

/-- A request for encryption is refused to both for the same reason, or both go on with the
answer to the next query. -/
theorem Beside.secure (h : Beside k u u' Eq w w') (turned : Turned disabled u u') :
    w'.secure.acts = w.secure.acts ∧
      ((∃ e, w.secure.answer = .error e ∧ w'.secure.answer = .error e ∧
          Beside k u u' Unread.Any w.secure.wire w'.secure.wire) ∨
        (w.secure.answer = .ok [] ∧ w'.secure.answer = .ok [] ∧
          ∃ names, Beside k u u' (Ahead disabled names) w.secure.wire w'.secure.wire)) := by
  obtain ⟨incoming, link⟩ := h.link
  have there : w'.link.upgrade = u' := by rw [link]
  have fault : w'.link.closedFault = w.link.closedFault := by rw [link]
  have anything : Beside k u u' Unread.Any w w' := h.imp fun _ _ _ => trivial
  cases opened : w.link.isOpen with
  | false =>
    rw [secure_closed opened, secure_closed (by rw [link, opened]), fault]
    exact ⟨rfl, .inl ⟨_, rfl, rfl, anything⟩⟩
  | true =>
    have opened' : w'.link.isOpen = true := by rw [link, opened]
    cases turned with
    | @granted names segments segments' struck =>
      rw [secure_granted opened h.turned, secure_granted opened' there]
      refine ⟨rfl, .inr ⟨rfl, rfl, names, ⟨segments', ?_⟩, h.turned, h.owned, ⟨rfl, rfl⟩, rfl, rfl,
        struck⟩⟩
      rw [link]
    | declined f =>
      rw [secure_declined opened h.turned, secure_declined opened' there]
      exact ⟨rfl, .inl ⟨_, rfl, rfl, anything⟩⟩
    | broken =>
      rw [secure_broken opened h.turned, secure_broken opened' there]
      refine ⟨rfl, .inl ⟨_, rfl, rfl, ⟨incoming, ?_⟩, h.turned, h.owned, h.scripted, trivial⟩⟩
      rw [link]
      rfl

def Opens (disabled names : List String) (p p' : Unread) : Prop :=
  p.1 = .empty ∧ p'.1 = .empty ∧ Script disabled names p.2 p'.2

/-- Both are greeted with the same words, or neither is greeted. -/
def Greeted (disabled names : List String) (r r' : Except Failure Response) (p p' : Unread) : Prop :=
  (∃ e, r = .error e ∧ r' = .error e) ∨
    ∃ g, r = .ok g ∧ r' = .ok g ∧ ((g.isUntagged && g.isOk) = true → Ahead disabled names p p')

theorem carries_greeted (disabled names : List String) :
    Carries Framer.next (Opens disabled names) (Greeted disabled names) := by
  rintro f f' s s' idle ⟨held, held', script⟩
  obtain rfl : f = .empty := held
  obtain rfl : f' = .empty := held'
  dsimp only at script
  generalize ht : tape s.segments = t at script
  generalize ht' : tape s'.segments = t' at script
  cases script with
  | @greeted r t t' whole rest =>
    obtain ⟨left, hn, hl⟩ := Framer.next_whole whole ht
    obtain ⟨left', hn', hl'⟩ := Framer.next_whole whole ht'
    rw [hn, hn']
    refine .inr ⟨r, rfl, rfl, fun _ => ⟨rfl, rfl, ?_⟩⟩
    rw [hl, hl']
    exact rest
  | unwelcome h =>
    obtain ⟨left, hn, -⟩ := Framer.next_alike .empty idle (ht'.trans ht.symm)
    rw [hn]
    cases hr : (Framer.empty.next s).1 with
    | error e => exact .inl ⟨e, rfl, rfl⟩
    | ok g => exact .inr ⟨g, rfl, rfl, fun welcome => by rw [h s g ht hr] at welcome; cases welcome⟩

end Wire

namespace Op

variable {a a' : Account} {k : Nat} {u u' : Upgrade} {names : List String}

/-- A relation on sessions that have come to the same, apart from what there is to be read. -/
abbrev Near (k : Nat) (u u' : Upgrade) (T : Unread → Unread → Prop) : Stand → Stand → Prop :=
  fun x x' => x.Beside k u u' T x'

def Known (k : Nat) (u u' : Upgrade) (names : List String) (x x' : Stand) : Prop :=
  Near k u u' Eq x x' ∧ ∀ name, x.capabilities.has name = names.contains (Ascii.lower name)

theorem paired_greet {disabled : List String} : Paired a a' k (Near k u u' (Wire.Opens disabled names))
    (Near k u u' (Ahead disabled names)) (Near k u u' Unread.Any) greet greet := by
  intro x x' h
  have read := h.wire.reading (Wire.carries_greeted disabled names) fun e _ _ _ => .inl ⟨e, rfl, rfl⟩
  rcases hr : x.wire.reading Framer.next with ⟨r, v⟩
  rcases hr' : x'.wire.reading Framer.next with ⟨r', v'⟩
  have here : ∀ b, Op.read (x.scene b k) = ending r ({ x with wire := v }.scene b k) := by
    intro b
    rw [read_scene, hr]
  have there : ∀ b, Op.read (x'.scene b k) = ending r' ({ x' with wire := v' }.scene b k) := by
    intro b
    rw [read_scene, hr']
  rw [hr, hr'] at read
  rcases read.unread with ⟨e, rfl, rfl⟩ | ⟨g, rfl, rfl, ahead⟩
  · exact ⟨.error e, { x with wire := v }, { x' with wire := v' },
      { h with wire := read.imp fun _ _ _ => trivial },
      fun b b' _ _ => ⟨bind_error (here b), bind_error (there b')⟩⟩
  · by_cases welcome : (g.isUntagged && g.isOk) = true
    · refine ⟨.ok (), { x with wire := v, phase := .greeted },
        { x' with wire := v', phase := .greeted },
        { h with wire := { read with unread := ahead welcome }, phase := rfl }, fun b b' _ _ => ?_⟩
      rw [greet, bind_ok (here b), bind_ok (there b'), if_pos welcome]
      exact ⟨rfl, rfl⟩
    · refine ⟨.error (.breach (.greeting g.shown)), { x with wire := v }.did (.report .serverError),
        { x' with wire := v' }.did (.report .serverError), ?_, fun b b' _ _ => ?_⟩
      · have failed : Near k u u' Unread.Any { x with wire := v } { x' with wire := v' } :=
          { h with wire := read.imp fun _ _ _ => trivial }
        exact failed.did _
      · rw [greet, bind_ok (here b), bind_ok (there b'), if_neg welcome, bind_ok (report_scene _),
          bind_ok (report_scene _)]
        exact ⟨rfl, rfl⟩

/-- The answers to the query are not the same, but what is known from them is. -/
theorem paired_discover (struck : a'.disabled = []) :
    Paired a a' k (Near k u u' (Ahead a.disabled names)) (Known k u u' names)
      (Near k u u' Unread.Any) discover discover := by
  intro x x' h
  obtain ⟨owned, owned'⟩ := h.owned
  let g := x.wire.use (.command (x.tag + 1) Capabilities.word false)
  let g' := x'.wire.use (.command (x'.tag + 1) Capabilities.word false)
  have answered : Heard.Beside k u u' (Leave a.disabled names) Unread.Any g g' := by
    have asked : g' = x'.wire.use (.command (x.tag + 1) Capabilities.word false) := by
      simp only [g', h.tag]
    rw [asked]
    exact h.wire.line (Framer.carries_struck a.disabled names) (fun _ _ _ => trivial)
      (fun _ => trivial) _ _
  have here := fun (b : Scene) (account : b.world.accounts k = a) => discover_scene owned account
  have there := fun (b : Scene) (account : b.world.accounts k = a') => discover_scene owned' account
  dsimp only at here there
  rcases answered.outcome with ⟨e, hans, hans', wire⟩ | ⟨rs, rs', hans, hans', leave, wire⟩
  · rw [hans] at here
    rw [hans'] at there
    exact ⟨.error e, x.drew.heard g, x'.drew.heard g', h.drew.heard answered.acts wire,
      fun b b' account account' => ⟨here b account, there b' account'⟩⟩
  · rw [hans] at here
    rw [hans'] at there
    have heard := h.drew.heard answered.acts wire
    have offers := Capabilities.has_of_leave leave
    refine ⟨.ok (),
      { x.drew.heard g with capabilities := .ofResponses rs a.disabled, phase := .capabilitiesKnown },
      { x'.drew.heard g' with
        capabilities := .ofResponses rs' a'.disabled, phase := .capabilitiesKnown },
      ⟨{ heard with offers := fun name => ?_, phase := rfl }, fun name => (offers name).1⟩,
      fun b b' account account' => ⟨here b account, there b' account'⟩⟩
    rw [(offers name).1, struck, (offers name).2]

/-- Encryption is refused to both, or both have nothing but the answer to the next query to
go on with. -/
theorem paired_secured {disabled : List String} (turned : Turned disabled u u') :
    Paired a a' k (Near k u u' Eq) (fun x x' => ∃ names, Near k u u' (Ahead disabled names) x x')
      (Near k u u' Unread.Any)
      (do secureLink; setSession fun s => { s with framer := some .empty })
      (do secureLink; setSession fun s => { s with framer := some .empty }) := by
  intro x x' h
  obtain ⟨owned, owned'⟩ := h.owned
  obtain ⟨acts, outcome⟩ := h.wire.secure turned
  have made := fun (b b' : Scene) =>
    And.intro (secured_scene (b := b) owned) (secured_scene (b := b') owned')
  rcases outcome with ⟨e, hans, hans', wire⟩ | ⟨hans, hans', names, wire⟩
  · rw [hans, hans'] at made
    exact ⟨.error e, _, _, h.heard acts wire, fun b b' _ _ => made b b'⟩
  · rw [hans, hans'] at made
    exact ⟨.ok (), _, _, ⟨names, h.heard acts wire⟩, fun b b' _ _ => made b b'⟩

/-- Both ask for encryption or neither does, and both know the same afterwards. -/
theorem paired_encrypt (accounts : a' = { a with disabled := [] })
    (turned : names.contains (Ascii.lower startTls) = true → Turned a.disabled u u') :
    Paired a a' k (Known k u u' names) (Near k u u' Eq) (Near k u u' Unread.Any) encrypt encrypt := by
  have steps : Stepwise a a' k (Near k u u' Eq) := stepwise_beside (by rw [accounts])
  have struck : a'.disabled = [] := by rw [accounts]
  have settles : ∀ x x', Known k u u' names x x' → Near k u u' Eq x x' := fun _ _ h => h.1
  have weaker : ∀ x x', Near k u u' Eq x x' → Near k u u' Unread.Any x x' :=
    fun _ _ h => h.imp fun _ _ _ => trivial
  apply paired_session
  · intro v v' same
    simp only [same]
  rintro v v' ⟨x, x', h, hv, hv'⟩
  have offered : v.capabilities.has startTls = names.contains (Ascii.lower startTls) := by
    rw [hv, h.2]
  have offered' : v'.capabilities.has startTls = names.contains (Ascii.lower startTls) := by
    rw [hv', h.1.offers, h.2]
  rw [offered, offered']
  by_cases asked : names.contains (Ascii.lower startTls) = true
  · rw [if_pos asked]
    apply (paired_bind (steps.setPhase .securing) ?_).imp settles (fun _ _ => id) (fun _ _ => id)
    intro _
    apply paired_bind ((steps.run startTls false).imp (fun _ _ => id) (fun _ _ => id) weaker)
    intro _
    rw [← bind_assoc]
    apply paired_bind (paired_secured (turned asked))
    intro _
    rintro y y' ⟨found, ahead⟩
    exact (paired_discover struck).imp (fun _ _ => id) (fun _ _ h => h.1) (fun _ _ => id) y y' ahead
  · rw [if_neg asked]
    exact (paired_pure ()).imp settles (fun _ _ => id) (fun _ _ => id)

/-- From the greeting to the end of the login, both do the same. -/
theorem paired_converse (accounts : a' = { a with disabled := [] })
    (turned : names.contains (Ascii.lower startTls) = true → Turned a.disabled u u') :
    Paired a a' k (Near k u u' (Wire.Opens a.disabled names)) (Near k u u' Eq)
      (Near k u u' Unread.Any) converse converse := by
  have steps : Stepwise a a' k (Near k u u' Eq) := stepwise_beside (by rw [accounts])
  apply paired_bind paired_greet
  intro _
  apply paired_bind (paired_discover (by rw [accounts]))
  intro _
  apply paired_bind (paired_encrypt accounts turned)
  intro _
  apply paired_bind (steps.setPhase .authenticating)
  intro _
  exact steps.authenticate.imp (fun _ _ => id) (fun _ _ => id) fun _ _ h => h.imp fun _ _ _ => trivial

end Op

namespace Opening

open Op

variable {k : Nat} {s s' t t' : Scene} {log log' : List Event}

/-- Two sessions that are about to be opened and differ in two things: the account of the
first has names switched off, and the script of the second has these names struck. -/
structure Counterpart (k : Nat) (s s' : Scene) : Prop where
  bound : s.session.account = some k
  session : s'.session = s.session
  account : s'.world.accounts k = { s.world.accounts k with disabled := [] }
  tag : lastTag s' = lastTag s
  scripted : (s.world.dial k).1.Scripted
  scripts : ∃ incoming upgrade names,
    (s'.world.dial k).1 = { (s.world.dial k).1 with incoming, upgrade } ∧
    Script (s.world.accounts k).disabled names (tape (s.world.dial k).1.incoming) (tape incoming) ∧
    (names.contains (Ascii.lower startTls) = true →
      Turned (s.world.accounts k).disabled (s.world.dial k).1.upgrade upgrade)

/-- Since the logs stood at `log` and `log'` the same was done, and both have come to the same,
though there may be something else to be read from the second link than from the first. -/
structure Matched (log log' : List Event) (t t' : Scene) : Prop where
  account : t'.session.account = t.session.account
  link : ∃ incoming upgrade, t'.session.link = t.session.link.map fun l => { l with incoming, upgrade }
  framer : t'.session.framer.isSome = t.session.framer.isSome
  offers : ∀ name, t'.session.capabilities.has name = t.session.capabilities.has name
  phrase : t'.session.loginPhrase = t.session.loginPhrase
  phase : t'.session.phase = t.session.phase
  tag : lastTag t' = lastTag t
  log : ∃ done, t.world.log = log ++ done ∧ t'.world.log = log' ++ done

def unread (s : Scene) : Option Framer × Option (List Cell) :=
  (s.session.framer, s.session.link.map fun l => tape l.incoming)

/-- What is made of the outcome is the same, and nothing stays half read. -/
theorem conclude_matched (bound : t.session.account = some k) (h : Matched log log' t t')
    (r : Except Failure Unit) : ∃ v v', conclude r t = ending r v ∧ conclude r t' = ending r v' ∧
      Matched log log' v v' ∧ v'.session.framer = v.session.framer ∧
      (unread t' = unread t → unread v' = unread v) := by
  have framer : t'.session.framer.map (fun _ => Framer.empty) =
      t.session.framer.map fun _ => Framer.empty := by
    have same := h.framer
    cases hf : t.session.framer <;> cases hf' : t'.session.framer <;> simp_all
  obtain ⟨done, hlog, hlog'⟩ := h.log
  refine ⟨_, _, conclude_bound bound r, conclude_bound (h.account.trans bound) r,
    { h with framer := ?_, phase := rfl, log := ⟨done ++ (lateActs r).map (Event.mk k), ?_, ?_⟩ },
    framer, fun same => ?_⟩
  · exact congrArg Option.isSome framer
  · rw [hlog, List.append_assoc]
  · rw [hlog', List.append_assoc]
  · have tapes : (unread t').2 = (unread t).2 := by rw [same]
    exact Prod.ext framer tapes

theorem matched_scenes {u u' : Upgrade} {T : Unread → Unread → Prop} {x x' : Stand}
    (h : x.Beside k u u' T x') (b b' : Scene) :
    Matched b.world.log b'.world.log (x.scene b k) (x'.scene b' k) := by
  obtain ⟨incoming, link⟩ := h.wire.link
  refine ⟨rfl, ⟨incoming, u', congrArg some link⟩, rfl, h.offers, h.phrase, h.phase, ?_,
    x.acts.map (Event.mk k), rfl, ?_⟩
  · rw [lastTag_scene, lastTag_scene, h.tag]
  · rw [← h.acts]
    rfl

theorem Matched.earlier {before : List Event} (h : Matched (log ++ before) (log' ++ before) t t') :
    Matched log log' t t' := by
  obtain ⟨done, hlog, hlog'⟩ := h.log
  refine { h with log := ⟨before ++ done, ?_, ?_⟩ }
  · rw [hlog, List.append_assoc]
  · rw [hlog', List.append_assoc]

theorem Counterpart.setPhase (h : Counterpart k s s') (p : Phase) :
    Counterpart k { s with session := { s.session with phase := p } }
      { s' with session := { s'.session with phase := p } } :=
  { h with session := by rw [h.session], tag := h.tag }

theorem Counterpart.cleared (h : Counterpart k s s') :
    Counterpart k (Opening.cleared s) (Opening.cleared s') where
  bound := by simpa using h.bound
  session := by simp only [Opening.cleared, h.session]
  account := h.account
  tag := by rw [lastTag_cleared, lastTag_cleared, h.tag]
  scripted := by
    rw [dial_cleared]
    exact h.scripted
  scripts := by
    rw [dial_cleared, dial_cleared]
    exact h.scripts

/-- Both get their link and do the same on it, or neither gets one. -/
theorem dial_converse_matched (h : Counterpart k s s') (unlinked : s.session.link = none) :
    ∃ r t t', (dial >>= fun _ => converse) s = ending r t ∧
      (dial >>= fun _ => converse) s' = ending r t' ∧ t.session.account = some k ∧
      Matched s.world.log s'.world.log t t' ∧ (r = .ok () → unread t' = unread t) := by
  obtain ⟨incoming, upgrade, names, link, script, turned⟩ := h.scripts
  have bound' : s'.session.account = some k := by rw [h.session, h.bound]
  have hd := dial_scene h.bound
  have hd' := dial_scene bound'
  have fault : (s'.world.dial k).1.openFault = (s.world.dial k).1.openFault := by rw [link]
  rw [fault] at hd'
  cases hf : (s.world.dial k).1.openFault with
  | some f =>
    rw [hf] at hd hd'
    refine ⟨.error (.link f), _, _, bind_error hd, bind_error hd', h.bound, ?_, fun ok => nomatch ok⟩
    refine ⟨by rw [h.session], ⟨[], .broken, ?_⟩, by rw [h.session], fun _ => by rw [h.session],
      by rw [h.session], by rw [h.session], ?_, _, rfl, rfl⟩
    · rw [h.session, unlinked]
      rfl
    · simpa [lastTag] using h.tag
  | none =>
    rw [hf] at hd hd'
    have fresh : (freshStand s k).Beside k (s.world.dial k).1.upgrade upgrade
        (Wire.Opens (s.world.accounts k).disabled names) (freshStand s' k) := by
      refine ⟨⟨⟨incoming, ?_⟩, rfl, owner_dial s.world k, h.scripted, rfl, rfl, ?_⟩, ?_, ?_, ?_,
        h.tag, rfl⟩
      · simp only [freshStand, newWire, link]
      · simp only [freshStand, newWire, Wire.unread, link]
        exact script
      · simp [freshStand, h.session]
      · simp [freshStand, h.session]
      · simp [freshStand, h.session]
    obtain ⟨r, y, y', post, made⟩ := paired_converse h.account turned _ _ fresh
    obtain ⟨ended, ended'⟩ := made (base s k) (base s' k) (by simp) (by simp)
    refine ⟨r, _, _, (bind_ok hd).trans ended, (bind_ok hd').trans ended', rfl, ?_, ?_⟩
    · rw [← log_base s k, ← log_base s' k]
      cases r with
      | ok => exact matched_scenes post _ _
      | error e => exact matched_scenes post _ _
    · rintro rfl
      obtain ⟨held, tapes⟩ := Prod.mk.inj post.wire.unread
      exact Prod.ext (congrArg some held.symm) (congrArg some tapes.symm)

/-- Names switched off are as if they had never been offered. A session on an account that
has names switched off, and a session on the same account without, whose link is the same
but for these names: to open the one is to open the other. Both end with the same outcome,
having done the same and come to the same; whichever name is looked up, it is found by both
or by neither; and if they are ready, there is the same left for both to read. -/
theorem connect_struck (h : Counterpart k s s') : ∃ r t t', connect s = ending r t ∧
    connect s' = ending r t' ∧ Matched s.world.log s'.world.log t t' ∧
    t'.session.framer = t.session.framer ∧ (r = .ok () → unread t' = unread t) := by
  have bound' : s'.session.account = some k := by rw [h.session, h.bound]
  by_cases ready : isReady s.session = true
  · have stays : ∀ s : Scene, isReady s.session = true → connect s = .ok () s := by
      intro s ready
      have hs : session s = .ok s.session s := rfl
      rw [connect, bind_ok hs, if_pos ready]
      rfl
    refine ⟨.ok (), s, s', stays s ready, stays s' (by rw [h.session, ready]), ?_, by rw [h.session],
      fun _ => by rw [unread, unread, h.session]⟩
    refine ⟨by rw [h.session], ?_, by rw [h.session], fun _ => by rw [h.session], by rw [h.session],
      by rw [h.session], h.tag, [], by simp, by simp⟩
    rw [h.session]
    cases s.session.link with
    | none => exact ⟨[], .broken, rfl⟩
    | some l => exact ⟨l.incoming, l.upgrade, rfl⟩
  · have idle : isReady s.session = false := by simpa using ready
    have idle' : isReady s'.session = false := by rw [h.session, idle]
    have unlinked : (cleared s).session.link = none := by
      unfold cleared
      dsimp only
      split
      · rfl
      · rename_i none
        simpa using none
    have closing' : closing s' = closing s := by rw [closing, closing, h.session]
    obtain ⟨r, t, t', ended, ended', bound, matched, same⟩ :=
      dial_converse_matched (h.cleared.setPhase .connecting) unlinked
    obtain ⟨v, v', hv, hv', concluded, framer, kept⟩ := conclude_matched bound matched r
    have since : Matched (s.world.log ++ closing s) (s'.world.log ++ closing s') v v' := concluded
    rw [closing'] at since
    have established : establish (cleared s) = ending r t := ended
    have established' : establish (cleared s') = ending r t' := ended'
    have attempt : attemptOpening (cleared s) = ending r v := by
      rw [attemptOpening_eq, bind_ok (attempt_ending established), hv]
    have attempt' : attemptOpening (cleared s') = ending r v' := by
      rw [attemptOpening_eq, bind_ok (attempt_ending established'), hv']
    rw [connect_eq h.bound idle, connect_eq bound' idle']
    exact ⟨r, v, v', attempt, attempt', since.earlier, framer, fun ok => kept (same ok)⟩

/-- A session that is about to be opened on a link which says this, before encryption and
after it, with these names switched off. -/
def scriptedScene (disabled : List String) (plain tls : List UInt8) : Scene :=
  let w : World := {
    accounts := fun _ => ⟨some "user", some "secret", "host", disabled, "nonce", 0⟩
    supplies := fun _ => ⟨[{ Server.quiet.link with
      incoming := [.bytes plain], upgrade := .granted [.bytes tls] }], Server.quiet.link⟩
    tags := World.noTags
    log := [] }
  ⟨.bound w 0, w⟩

def notice (text : String) : Response :=
  ⟨.untagged ⟨.ok, none, text⟩, Utf8.encode ("* OK " ++ text) ++ [Token.cr, Token.lf]⟩

def completion (tag : String) : Response :=
  ⟨.completion tag ⟨.ok, none, "done"⟩, Utf8.encode (tag ++ " OK done") ++ [Token.cr, Token.lf]⟩

def encryption : Capability := ⟨"STARTTLS", by decide, by decide, by decide⟩

def digest : Capability := ⟨"AUTH=Digest-MD5", by decide, by decide, by decide⟩

def plainScript (row : List Capability) : List UInt8 :=
  (notice "hello").raw ++ (Capabilities.offer row).raw ++ (notice "wait").raw ++
    (completion "1").raw ++ (completion "2").raw

def secureScript (row : List Capability) : List UInt8 :=
  (Capabilities.offer row).raw ++ (completion "3").raw ++ (completion "4").raw

/-- The digest login is switched off, and the plain one is made over the encrypted link. -/
theorem connect_struck_digest : ∃ t t',
    connect (scriptedScene ["auth=digest-md5"] (plainScript [encryption, digest])
      (secureScript [digest])) = .ok () t ∧
    connect (scriptedScene [] (plainScript [encryption]) (secureScript [])) = .ok () t' ∧
    Matched [] [] t t' ∧ unread t' = unread t := by
  let s := scriptedScene ["auth=digest-md5"] (plainScript [encryption, digest]) (secureScript [digest])
  let s' := scriptedScene [] (plainScript [encryption]) (secureScript [])
  have whole : (notice "hello").Whole ∧ (notice "wait").Whole ∧ (completion "1").Whole ∧
      (completion "3").Whole := by decide +kernel
  obtain ⟨hello, wait, first, third⟩ := whole
  have struck : Capabilities.spared ["auth=digest-md5"] [encryption, digest] = [encryption] ∧
      Capabilities.spared ["auth=digest-md5"] [digest] = [] := by decide +kernel
  have before : Script ["auth=digest-md5"] [encryption.lower]
      (tape [.bytes (plainScript [encryption, digest])]) (tape [.bytes (plainScript [encryption])]) := by
    have answer : Struck ["auth=digest-md5"] []
        (said (completion "1").raw ++ said (completion "2").raw) _ := .ended first rfl
    have script := Script.greeted hello (.offer [encryption, digest] (.condition wait rfl answer))
    rw [struck.1] at script
    simpa [plainScript] using script
  have after : Struck ["auth=digest-md5"] [] (tape [.bytes (secureScript [digest])])
      (tape [.bytes (secureScript [])]) := by
    have answer : Struck ["auth=digest-md5"] []
        (said (completion "3").raw ++ said (completion "4").raw) _ := .ended third rfl
    have script := Struck.offer [digest] answer
    rw [struck.2] at script
    simpa [secureScript] using script
  have counterpart : Counterpart 0 s s' :=
    ⟨rfl, rfl, rfl, rfl, ⟨rfl, rfl⟩, _, _, _, rfl, before, fun _ => .granted after⟩
  obtain ⟨r, t, t', opened, opened', matched, -, same⟩ := connect_struck counterpart
  have succeeds : Ends connect s (fun _ _ => True) fun _ _ => False := by decide +kernel
  obtain ⟨_, _, done, -⟩ := succeeds.succeeds
  obtain rfl : r = .ok () := by
    cases r with
    | ok => rfl
    | error e => cases opened.symm.trans done
  exact ⟨t, t', opened, opened', matched, same rfl⟩

/-- A link that says more than it should: the note in front of the offer ends in a count, and
that many bytes behind it are taken for a part of the note. -/
def noteScript (row : List Capability) : List UInt8 :=
  (notice "hello").raw ++ (notice "note \x7b14\x7d").raw ++ (Capabilities.offer row).raw ++
    (completion "1").raw ++ (completion "2").raw

/-- Without the name, the bytes taken for a part of the note go as far as the end of the offer,
and the completion behind it is lost as well. -/
theorem connect_unstruck_note :
    Ends connect (scriptedScene ["STARTTLS"] (noteScript [encryption]) [])
        (fun _ t => t.session.phase = .ready) (fun _ _ => False) ∧
      Ends connect (scriptedScene [] (noteScript (Capabilities.spared ["STARTTLS"] [encryption])) [])
        (fun _ _ => False) (fun e t => e = .lost ∧ t.session.phase = .failed) := by
  decide +kernel

end Opening

end ImapSession
