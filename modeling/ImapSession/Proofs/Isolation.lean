import Mathlib.Data.List.Forall2
import ImapSession.Proofs.Calling
import ImapSession.Proofs.Hearing
import ImapSession.Proofs.Scheduling

/-!
Sessions that share a counter and nothing else. What one of them does draws tags, and so
changes the numbers on the lines of the others; but no far end tells lines apart by their
tags, and no session looks at the tags for anything. So each of them does what it would do
if it were alone, whatever the others do in between and whatever becomes of them.
-/
namespace ImapSession

def Event.ofCommand (account : Nat) (tag : UInt64) (command : String) (sensitive : Bool) : Event :=
  ⟨account, .write (tagged tag command)
    (if sensitive then tagged tag Op.redacted else tagged tag command)⟩

/-- The same was done, but for the tag on a command: where the one draws tags after `t`,
the other draws them after `t'`. -/
inductive Event.Renumbered (t t' : UInt64) : Event → Event → Prop
  | same (e : Event) : Renumbered t t' e e
  | command (k n : Nat) (command : String) (sensitive : Bool) : Renumbered t t'
      (.ofCommand k (t + UInt64.ofNat (n + 1)) command sensitive)
      (.ofCommand k (t' + UInt64.ofNat (n + 1)) command sensitive)

/-- The same tag, drawn after `t` and after `t'`. -/
def Renumbered (t t' : UInt64) (tag tag' : String) : Prop :=
  ∃ n : Nat, tag = toString (t + UInt64.ofNat (n + 1)).toNat ∧
    tag' = toString (t' + UInt64.ofNat (n + 1)).toNat

namespace Op

variable {A : Nat → Prop} {ev : Event → Event → Prop} {N : Prop} {s₀ s₀' s s' : Scene}

/-- A session in two worlds that agree about its accounts, those it is bound to now and
those it may be bound to later. -/
structure Agree (A : Nat → Prop) (s s' : Scene) : Prop where
  session : s'.session = s.session
  accounts : s'.world.accounts = s.world.accounts
  supplies : ∀ k, A k → s'.world.supplies k = s.world.supplies k
  bound : ∀ k, s.session.account = some k → A k

/-- Since the session stood in two others it has done things that go together, and if it
is known to (`N`), it has drawn as many tags. -/
structure Beside (A : Nat → Prop) (ev : Event → Event → Prop) (N : Prop) (s₀ s₀' s s' : Scene) :
    Prop extends Agree A s s' where
  log : ∃ es es', s.world.log = s₀.world.log ++ es ∧ s'.world.log = s₀'.world.log ++ es' ∧
    List.Forall₂ ev es es'
  tags : N → ∃ n : Nat, Opening.lastTag s = Opening.lastTag s₀ + UInt64.ofNat n ∧
    Opening.lastTag s' = Opening.lastTag s₀' + UInt64.ofNat n

theorem Agree.beside (h : Agree A s s') : Beside A ev N s s' s s' where
  toAgree := h
  log := ⟨[], [], by simp, by simp, .nil⟩
  tags _ := ⟨0, by simp, by simp⟩

/-- The session changes in the same way in both worlds. -/
theorem Beside.turn (h : Beside A ev N s₀ s₀' s s') {v : Session}
    (counter : N → v.counter = s.session.counter) (bound : ∀ k, v.account = some k → A k) :
    Beside A ev N s₀ s₀' { s with session := v } { s' with session := v } where
  session := rfl
  accounts := h.accounts
  supplies := h.supplies
  bound := bound
  log := h.log
  tags known := by
    have same : s'.session.counter = s.session.counter := by rw [h.session]
    obtain ⟨n, tag, tag'⟩ := h.tags known
    refine ⟨n, ?_, ?_⟩
    · rw [← tag, Opening.lastTag, counter known, Opening.lastTag]
    · rw [← tag', Opening.lastTag, counter known, ← same, Opening.lastTag]

theorem Beside.note (h : Beside A ev N s₀ s₀' s s') {es es' : List Event}
    (together : List.Forall₂ ev es es') : Beside A ev N s₀ s₀'
      { s with world := { s.world with log := s.world.log ++ es } }
      { s' with world := { s'.world with log := s'.world.log ++ es' } } where
  session := h.session
  accounts := h.accounts
  supplies := h.supplies
  bound := h.bound
  log := by
    obtain ⟨ds, ds', log, log', before⟩ := h.log
    exact ⟨ds ++ es, ds' ++ es', by simp [log], by simp [log'],
      List.rel_append before together⟩
  tags := h.tags

theorem Beside.drawn (h : Beside A ev N s₀ s₀' s s') : Beside A ev N s₀ s₀' s.drawn s'.drawn where
  session := h.session
  accounts := h.accounts
  supplies := h.supplies
  bound := h.bound
  log := h.log
  tags known := by
    obtain ⟨n, tag, tag'⟩ := h.tags known
    refine ⟨n + 1, ?_, ?_⟩
    · simp [tag, UInt64.ofNat_add, UInt64.add_assoc]
    · simp [tag', UInt64.ofNat_add, UInt64.add_assoc]

/-- Lines that go together are handed to the link, which does the same with both. -/
theorem Beside.handed (h : Beside A ev N s₀ s₀' s s') {l : Link} {line line' shown shown' : String}
    (same : l.write line' = l.write line)
    (together : ev ⟨l.owner, .write line shown⟩ ⟨l.owner, .write line' shown'⟩) :
    Beside A ev N s₀ s₀' (s.handed l line shown) (s'.handed l line' shown') := by
  have turned := h.turn (v := { s.session with link := some (l.write line).2 }) (fun _ => rfl)
    h.bound
  rw [Scene.handed_eq, Scene.handed_eq, same, h.session]
  apply turned.note
  cases (l.write line).1.isOk with
  | true => exact .cons together .nil
  | false => exact .nil

/-- Both worlds give out a link of one of these accounts. -/
theorem Beside.dialled (h : Beside A ev N s₀ s₀' s s') {k : Nat} (refl : ∀ e, ev e e) (hk : A k) :
    Beside A ev N s₀ s₀' { s with world := s.world.dialled k }
      { s' with world := s'.world.dialled k } where
  session := h.session
  accounts := by simp [h.accounts]
  supplies j hj := by
    unfold World.dialled
    rw [World.dial_supplies, World.dial_supplies, h.supplies k hk, ImapSession.put,
      ImapSession.put, h.supplies j hj]
  bound := h.bound
  log := by
    obtain ⟨ds, ds', log, log', before⟩ := h.log
    exact ⟨ds ++ [⟨k, .dial⟩, ⟨k, .establish⟩], ds' ++ [⟨k, .dial⟩, ⟨k, .establish⟩],
      by simp [World.dialled, log], by simp [World.dialled, log'],
      List.rel_append before (.cons (refl _) (.cons (refl _) .nil))⟩
  tags known := by
    simpa [Opening.lastTag] using h.tags known

/-- What takes no tag is the same in both worlds. -/
theorem keptUnopened_beside (refl : ∀ e, ev e e) :
    KeptUnopened .all (Beside A ev N s₀ s₀') fun k => A k ∧ ¬ N where
  session h := by rw [h.session]
  shifts {s s' v} h shifts := by
    have same : { v with loginPhrase := s'.session.loginPhrase } = v := by
      rw [h.session, ← shifts.loginPhrase]
    rw [same]
    exact h.turn (fun _ => shifts.counter) fun k hk => h.bound k (shifts.account ▸ hk)
  records k act h _ := h.note (.cons (refl _) .nil)
  writes := by
    rintro text sensitive - s s' ⟨h, linked⟩
    obtain ⟨l, hl⟩ := Option.isSome_iff_exists.1 linked
    have hl' : s'.session.link = some l := by rw [h.session, hl]
    rw [write_handed text _ hl, write_handed text _ hl']
    exact match_ending _ (h.handed rfl (refl _))
  phrase h := by rw [h.session]
  unbinds h := by
    rw [h.session]
    exact h.turn (fun _ => rfl) nofun
  binds {s s' k} h within := by
    rw [h.session]
    unfold Session.bind
    rw [h.accounts]
    refine h.turn (fun known => absurd known within.2) fun j hj => ?_
    obtain rfl : k = j := Option.some.inj hj
    exact within.1

/-- A command is the same in both worlds but for its tag. -/
theorem keptThroughout_beside : KeptThroughout .all
    (Beside A (Event.Renumbered (Opening.lastTag s₀) (Opening.lastTag s₀')) True s₀ s₀')
    (Renumbered (Opening.lastTag s₀) (Opening.lastTag s₀')) fun k => A k ∧ ¬ True where
  toKeptUnopened := keptUnopened_beside .same
  opens := Vocabulary.opens_all
  disabled h _ := by rw [h.accounts]
  dials := by
    rintro k s s' ⟨h, bound⟩
    have dialled := h.dialled .same (h.bound k bound)
    have given : (s'.world.dial k).1 = (s.world.dial k).1 := by
      rw [World.dial_link, World.dial_link, h.supplies k (h.bound k bound)]
    rw [taking_eq, taking_eq, given, h.session]
    cases (s.world.dial k).1.establish with
    | ok l => exact ⟨rfl, dialled.turn (fun _ => rfl) h.bound⟩
    | error f => exact ⟨rfl, dialled.turn (fun _ => rfl) h.bound⟩
  sends := by
    rintro command sensitive - s s' ⟨h, linked⟩
    obtain ⟨l, hl⟩ := Option.isSome_iff_exists.1 linked
    have hl' : s'.session.link = some l := by rw [h.session, hl]
    obtain ⟨n, tag, tag'⟩ := h.tags trivial
    have next : Opening.lastTag s + 1 = Opening.lastTag s₀ + UInt64.ofNat (n + 1) := by
      rw [tag, UInt64.ofNat_add, UInt64.add_assoc]
      rfl
    have next' : Opening.lastTag s' + 1 = Opening.lastTag s₀' + UInt64.ofNat (n + 1) := by
      rw [tag', UInt64.ofNat_add, UInt64.add_assoc]
      rfl
    have same := l.write_tagged (Opening.lastTag s + 1) (Opening.lastTag s' + 1) command
    rw [sendTagged_handed command sensitive hl, sendTagged_handed command sensitive hl', same]
    apply match_map _ ⟨n, by rw [next], by rw [next']⟩
    apply h.drawn.handed same
    rw [next, next']
    exact .command l.owner n command sensitive
  accounts h _ := by rw [h.accounts]
  builds h _ := by
    rw [h.session]
    exact h.turn (fun _ => rfl) h.bound
  logs _ _ := trivial

/-- A scene of another session, in which nothing has become of these accounts. -/
def Elsewhere (A : Nat → Prop) (w : World) (s s' : Scene) : Prop :=
  s = s' ∧ s.world.accounts = w.accounts ∧ (∀ k, A k → s.world.supplies k = w.supplies k) ∧
    ∀ k, s.session.account = some k → ¬ A k

/-- What is handed to a link leaves accounts and their links as they are. -/
theorem Elsewhere.handed {w : World} {t : Scene} {l : Link} {line shown : String}
    (h : Elsewhere A w s s) (session : t.session = s.session)
    (accounts : t.world.accounts = s.world.accounts)
    (supplies : t.world.supplies = s.world.supplies) :
    Elsewhere A w (t.handed l line shown) (t.handed l line shown) := by
  obtain ⟨-, same, links, bound⟩ := h
  rw [Scene.handed_eq]
  refine ⟨rfl, accounts.trans same, fun k hk => ?_, fun k hk => bound k ?_⟩
  · exact (congrFun supplies k).trans (links k hk)
  · rw [← session]
    exact hk

/-- A link of another account is given out, which leaves those of these accounts. -/
theorem Elsewhere.dialled {w : World} (h : Elsewhere A w s s) {k : Nat}
    (bound : s.session.account = some k) {v : Session} (account : v.account = s.session.account) :
    Elsewhere A w ⟨v, s.world.dialled k⟩ ⟨v, s.world.dialled k⟩ := by
  obtain ⟨-, accounts, links, apart⟩ := h
  refine ⟨rfl, by simp [accounts], fun j hj => ?_, fun j hj => apart j (account ▸ hj)⟩
  have other : j ≠ k := by
    rintro rfl
    exact apart j bound hj
  rw [← links j hj, World.dialled, World.dial_supplies, put_other _ _ _ _ other]

theorem keptUnopened_elsewhere (A : Nat → Prop) (w : World) :
    KeptUnopened .all (Elsewhere A w) fun k => ¬ A k where
  session := by
    rintro s _ ⟨rfl, -⟩
    rfl
  shifts := by
    rintro s _ v ⟨rfl, accounts, links, bound⟩ shifts
    have same : { v with loginPhrase := s.session.loginPhrase } = v := by rw [← shifts.loginPhrase]
    rw [same]
    exact ⟨rfl, accounts, links, fun k hk => bound k (shifts.account ▸ hk)⟩
  records := by
    rintro s _ k act ⟨rfl, h⟩ -
    exact ⟨rfl, h⟩
  writes := by
    rintro text sensitive - s _ ⟨⟨rfl, h⟩, linked⟩
    obtain ⟨l, hl⟩ := Option.isSome_iff_exists.1 linked
    rw [write_handed text _ hl]
    exact match_ending _ (Elsewhere.handed ⟨rfl, h⟩ rfl rfl rfl)
  phrase := by
    rintro s _ ⟨rfl, -⟩
    rfl
  unbinds := by
    rintro s _ ⟨rfl, accounts, links, -⟩
    exact ⟨rfl, accounts, links, by simp⟩
  binds := by
    rintro s _ k ⟨rfl, accounts, links, -⟩ other
    refine ⟨rfl, accounts, links, fun j hj => ?_⟩
    obtain rfl : k = j := Option.some.inj hj
    exact other

/-- A session that is bound to other accounts does nothing to these. -/
theorem keptThroughout_elsewhere (A : Nat → Prop) (w : World) :
    KeptThroughout .all (Elsewhere A w) Eq fun k => ¬ A k where
  toKeptUnopened := keptUnopened_elsewhere A w
  opens := Vocabulary.opens_all
  disabled := by
    rintro s _ k ⟨rfl, -⟩ -
    rfl
  dials := by
    rintro k s _ ⟨h, bound⟩
    obtain rfl := h.1
    rw [taking_eq]
    cases (s.world.dial k).1.establish with
    | ok l => exact ⟨rfl, h.dialled bound rfl⟩
    | error f => exact ⟨rfl, h.dialled bound rfl⟩
  sends := by
    rintro command sensitive - s _ ⟨⟨rfl, h⟩, linked⟩
    obtain ⟨l, hl⟩ := Option.isSome_iff_exists.1 linked
    rw [sendTagged_handed command sensitive hl]
    exact match_ending _ (Elsewhere.handed ⟨rfl, h⟩ rfl rfl rfl)
  accounts := by
    rintro s _ k ⟨rfl, -⟩ -
    rfl
  builds := by
    rintro s _ command ⟨rfl, h⟩ -
    exact ⟨rfl, h⟩
  logs _ _ := trivial

end Op

/-- A move that is the same as another but for the tags: the one draws tags after those
drawn before it, and the other after those drawn before that. -/
structure Made.Renumbered (m m' : Made) : Prop where
  move : m'.move = m.move
  answer : m.answer.Alike
    (ImapSession.Renumbered (Opening.lastTag m.before) (Opening.lastTag m'.before)) m'.answer
  session : m'.after.session = m.after.session
  events : List.Forall₂
    (Event.Renumbered (Opening.lastTag m.before) (Opening.lastTag m'.before)) m.events m'.events
  untagged : m.move.opens = false → m'.answer = m.answer ∧ m'.events = m.events
  shown : ∃ head tail,
    m.after.session.shown m.after.world = head ++ toString (Opening.lastTag m.after).toNat ++ tail ∧
    m'.after.session.shown m'.after.world = head ++ toString (Opening.lastTag m'.after).toNat ++ tail

/-- What is shown of a session depends on the world for the last tag alone. -/
theorem Session.shown_tag (u : Session) : ∃ head tail, ∀ w : World,
    u.shown w = head ++ toString (u.lastTag w).toNat ++ tail :=
  ⟨"Connection \x7b state: " ++ u.phase.shown ++ ", open: " ++ toString u.isOpen ++
    ", capabilities: Capabilities(" ++ Inspect.ofTexts u.capabilities.sorted ++ "), last_tag: ",
    " \x7d", fun _ => rfl⟩

theorem Session.shown_same {s s' : Scene} (h : s'.session = s.session) : ∃ head tail,
    s.session.shown s.world = head ++ toString (Opening.lastTag s).toNat ++ tail ∧
    s'.session.shown s'.world = head ++ toString (Opening.lastTag s').toNat ++ tail := by
  obtain ⟨head, tail, shown⟩ := s.session.shown_tag
  refine ⟨head, tail, shown s.world, ?_⟩
  rw [Opening.lastTag, h]
  exact shown s'.world

theorem Made.events_eq {m : Made} {es : List Event}
    (h : m.after.world.log = m.before.world.log ++ es) : m.events = es := by
  rw [Made.events, h, List.drop_left]

namespace Op

variable {A : Nat → Prop} {m m' : Made}

/-- What was done without a tag was the same. -/
theorem Beside.untagged (move : m'.move = m.move) (answer : m'.answer = m.answer)
    (made : Beside A Eq False m.before m'.before m.after m'.after) : m.Renumbered m' := by
  obtain ⟨es, es', log, log', together⟩ := made.log
  have same : es = es' := by rwa [List.forall₂_eq_eq_eq] at together
  have events : m'.events = m.events := by
    rw [Made.events_eq log, Made.events_eq log', same]
  refine ⟨move, answer ▸ .same _, made.session, ?_, fun _ => ⟨answer, events⟩,
    Session.shown_same made.session⟩
  rw [events]
  exact List.forall₂_same.2 fun e _ => .same e

/-- What was done with tags was the same but for them. -/
theorem Beside.renumbered (move : m'.move = m.move) (opens : m.move.opens = true)
    (answer : m.answer.Alike
      (Renumbered (Opening.lastTag m.before) (Opening.lastTag m'.before)) m'.answer)
    (made : Beside A
      (Event.Renumbered (Opening.lastTag m.before) (Opening.lastTag m'.before)) True
      m.before m'.before m.after m'.after) : m.Renumbered m' := by
  obtain ⟨es, es', log, log', together⟩ := made.log
  refine ⟨move, answer, made.session, ?_, fun closed => by simp [opens] at closed,
    Session.shown_same made.session⟩
  rw [Made.events_eq log, Made.events_eq log']
  exact together

end Op

theorem Answer.Alike.eq {a a' : Answer} (h : a.Alike Eq a') : a' = a := by
  cases h with
  | same => rfl
  | tags together => rw [together]

/-- A session does the same in both worlds, and they still agree about it. -/
theorem Move.made_agree {A : Nat → Prop} {s s' : Scene} {m : Move} (h : Op.Agree A s s')
    (within : ∀ k, m = .ask (.bind k) → A k) :
    (m.made s).Renumbered (m.made s') ∧ Op.Agree A (m.made s).after (m.made s').after := by
  have kept : Op.KeptUnopened .all (Op.Beside A Eq False s s') fun k => A k ∧ ¬ False :=
    Op.keptUnopened_beside fun _ => rfl
  cases m with
  | sever =>
    have severed := kept.moves h.beside s.session.shifts_sever
    have same : (⟨s.session.sever, s'.world⟩ : Scene) = (Move.sever.made s').after := by
      rw [← h.session]
      rfl
    rw [same] at severed
    exact ⟨Op.Beside.untagged rfl rfl severed, severed.toAgree⟩
  | ask r =>
    cases opens : r.opens with
    | false =>
      obtain ⟨answer, made⟩ := (kept.request (T := Eq) opens (Op.Vocabulary.asks_all _)
        fun k hk => ⟨within k (by rw [hk]), id⟩).serve h.beside
      exact ⟨Op.Beside.untagged rfl answer.eq made, made.toAgree⟩
    | true =>
      have unbound : ∀ k, r = .bind k → A k ∧ ¬ True := by
        rintro k rfl
        cases opens
      obtain ⟨answer, made⟩ :=
        (Op.keptThroughout_beside.request (Op.Vocabulary.asks_all _) unbound).serve h.beside
      exact ⟨Op.Beside.renumbered rfl opens answer made, made.toAgree⟩

/-- A move of a session that is bound elsewhere leaves these accounts and their links alone. -/
theorem Move.made_elsewhere {A : Nat → Prop} {s : Scene} {m : Move}
    (bound : ∀ k, s.session.account = some k → ¬ A k)
    (within : ∀ k, m = .ask (.bind k) → ¬ A k) :
    Op.Elsewhere A s.world (m.made s).after (m.made s).after := by
  have kept := Op.keptThroughout_elsewhere A s.world
  have start : Op.Elsewhere A s.world s s := ⟨rfl, rfl, fun _ _ => rfl, bound⟩
  cases m with
  | sever => exact kept.toKeptUnopened.moves start s.session.shifts_sever
  | ask r =>
    have request : ∀ k, r = .bind k → ¬ A k := by
      rintro k rfl
      exact within k rfl
    obtain ⟨-, same, rest⟩ := ((kept.request (Op.Vocabulary.asks_all _) request).serve start).2
    exact ⟨rfl, same, rest⟩

namespace Pool

def Uses (p : Pool) (schedule : List (Nat × Move)) (i k : Nat) : Prop :=
  (∃ u, p.sessions[i]? = some u ∧ u.account = some k) ∨ (i, .ask (.bind k)) ∈ schedule

/-- A session in the pool and by itself: both worlds agree about its accounts, and the
others keep away from these. -/
structure Alone (A : Nat → Prop) (i : Nat) (s : Scene) (p : Pool) (schedule : List (Nat × Move)) :
    Prop where
  here : ∃ s', p.scene? i = some s' ∧ Op.Agree A s s'
  away : ∀ j ≠ i, ∀ u, p.sessions[j]? = some u → ∀ k, u.account = some k → ¬ A k
  mine : ∀ k, (i, .ask (.bind k)) ∈ schedule → A k
  others : ∀ j ≠ i, ∀ k, (j, .ask (.bind k)) ∈ schedule → ¬ A k

variable {A : Nat → Prop} {i j : Nat} {s t : Scene} {p : Pool} {m : Move}
variable {schedule : List (Nat × Move)}

theorem Alone.tail (h : Alone A i s p ((j, m) :: schedule)) : Alone A i s p schedule :=
  ⟨h.here, h.away, fun k hk => h.mine k (List.mem_cons_of_mem _ hk),
    fun j hj k hk => h.others j hj k (List.mem_cons_of_mem _ hk)⟩

theorem scene_put (p : Pool) (i : Nat) {s : Scene} (t : Scene) (h : p.scene? i = some s) :
    (p.put i t).scene? i = some t := by
  obtain ⟨u, hu, -⟩ := Option.map_eq_some_iff.1 h
  have within := (List.getElem?_eq_some_iff.1 hu).1
  simp [scene?, put, within]

theorem Alone.moves (h : Alone A i s p ((i, m) :: schedule)) : ∃ s', p.scene? i = some s' ∧
    (m.made s).Renumbered (m.made s') ∧
    Alone A i (m.made s).after (p.put i (m.made s').after) schedule := by
  obtain ⟨s', here, agree⟩ := h.here
  have within : ∀ k, m = .ask (.bind k) → A k := by
    rintro k rfl
    exact h.mine k (List.mem_cons_self ..)
  obtain ⟨renumbered, after⟩ := Move.made_agree agree within
  refine ⟨s', here, renumbered, ⟨_, p.scene_put i _ here, after⟩, fun j hj u hu => ?_, h.tail.mine,
    h.tail.others⟩
  rw [put, List.getElem?_set_ne hj.symm] at hu
  exact h.away j hj u hu

theorem Alone.other (h : Alone A i s p ((j, m) :: schedule)) (apart : j ≠ i)
    (there : p.scene? j = some t) : Alone A i s (p.put j (m.made t).after) schedule := by
  obtain ⟨s', here, agree⟩ := h.here
  obtain ⟨u, hu, rfl⟩ := Option.map_eq_some_iff.1 there
  obtain ⟨v, hv, rfl⟩ := Option.map_eq_some_iff.1 here
  have within : ∀ k, m = .ask (.bind k) → ¬ A k := by
    rintro k rfl
    exact h.others j apart k (List.mem_cons_self ..)
  obtain ⟨-, accounts, links, bound⟩ :=
    Move.made_elsewhere (s := ⟨u, p.world⟩) (h.away j apart u hu) within
  refine ⟨⟨⟨v, (m.made ⟨u, p.world⟩).after.world⟩, ?_, ?_⟩, fun k hk w hw => ?_, h.tail.mine,
    h.tail.others⟩
  · simp [scene?, put, List.getElem?_set_ne apart, hv]
  · exact ⟨agree.session, accounts.trans agree.accounts,
      fun k hk => (links k hk).trans (agree.supplies k hk), agree.bound⟩
  · by_cases same : k = j
    · subst same
      have within := (List.getElem?_eq_some_iff.1 hu).1
      obtain rfl : (m.made ⟨u, p.world⟩).after.session = w := by simpa [put, within] using hw
      exact bound
    · rw [put, List.getElem?_set_ne (Ne.symm same)] at hw
      exact h.away k hk w hw

theorem Alone.play (h : Alone A i s p schedule) :
    List.Forall₂ Made.Renumbered (s.play (own i schedule)) (own i (play schedule p).1) := by
  induction schedule generalizing s p with
  | nil => exact .nil
  | cons turn rest ih =>
    obtain ⟨j, m⟩ := turn
    by_cases same : j = i
    · subst same
      obtain ⟨s', here, renumbered, after⟩ := h.moves
      rw [play_some here, own_same, own_same]
      exact .cons renumbered (ih after)
    · rw [own_other same]
      cases there : p.scene? j with
      | none =>
        rw [play_none there]
        exact ih h.tail
      | some t =>
        rw [play_some there, own_other same]
        exact ih (h.other same there)

/-- Whatever other sessions do that use none of its accounts, and however they take turns,
a session does the same as it would do alone: it gives the same answers, comes to the same
states, and does the same things, but for the numbers of its tags. -/
theorem play_alone (here : p.scene? i = some s)
    (apart : ∀ j ≠ i, ∀ k, p.Uses schedule i k → ¬ p.Uses schedule j k) :
    List.Forall₂ Made.Renumbered (s.play (own i schedule)) (own i (play schedule p).1) := by
  obtain ⟨u, hu, rfl⟩ := Option.map_eq_some_iff.1 here
  have agree : Op.Agree (p.Uses schedule i) ⟨u, p.world⟩ ⟨u, p.world⟩ :=
    ⟨rfl, rfl, fun _ _ => rfl, fun k hk => .inl ⟨u, hu, hk⟩⟩
  refine Alone.play ⟨⟨_, here, agree⟩, fun j hj v hv k hk mine => ?_, fun k hk => .inr hk,
    fun j hj k hk mine => ?_⟩
  · exact apart j hj k mine (.inl ⟨v, hv, hk⟩)
  · exact apart j hj k mine (.inr hk)

def linesIn (made : List Made) : List String := made.flatMap fun m => linesOf m.events

/-- The first session of the pool in company, and by itself. -/
theorem play_alone_sample :
    let s : Scene := ⟨.bound sampleShared 0, sampleShared⟩
    samplePool.scene? 0 = some s ∧
      (∀ j ≠ 0, ∀ k, samplePool.Uses sampleTurns 0 k → ¬ samplePool.Uses sampleTurns j k) ∧
      List.Forall₂ Made.Renumbered (s.play (own 0 sampleTurns))
        (own 0 (play sampleTurns samplePool).1) ∧
      linesIn (s.play (own 0 sampleTurns)) =
        ["1 CAPABILITY", "", "3 CAPABILITY", "4 LOGIN user \"secret\"", "5 NOOP"] ∧
      linesIn (own 0 (play sampleTurns samplePool).1) =
        ["1 CAPABILITY", "", "6 CAPABILITY", "7 LOGIN user \"secret\"", "8 NOOP"] := by
  intro s
  have here : samplePool.scene? 0 = some s := rfl
  have mine : ∀ k, samplePool.Uses sampleTurns 0 k → k = 0 := by
    rintro k (⟨u, hu, hk⟩ | bound)
    · obtain rfl : Session.bound sampleShared 0 = u := Option.some.inj hu
      exact (Option.some.inj hk).symm
    · simp [sampleTurns] at bound
  have others : ∀ j ≠ 0, ¬ samplePool.Uses sampleTurns j 0 := by
    rintro j hj (⟨u, hu, hk⟩ | bound)
    · obtain rfl | beyond : j = 1 ∨ 2 ≤ j := by omega
      · obtain rfl : Session.bound sampleShared 1 = u := Option.some.inj hu
        cases hk
      · rw [List.getElem?_eq_none (by simpa [samplePool] using beyond)] at hu
        cases hu
    · simp [sampleTurns] at bound
  have apart : ∀ j ≠ 0, ∀ k, samplePool.Uses sampleTurns 0 k →
      ¬ samplePool.Uses sampleTurns j k := by
    intro j hj k hk
    rw [mine k hk]
    exact others j hj
  exact ⟨here, apart, play_alone here apart, by decide +kernel, by decide +kernel⟩

end Pool

end ImapSession
