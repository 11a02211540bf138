import ImapSession.Proofs.Lockstep
import ImapSession.Proofs.Serving

/-!
The lines that a session hands to its link: commands, each behind the next tag, and texts
without one. A link may fail to take a line; the tag is drawn by then, and nothing of the
line is recorded. Between two calls nothing is drawn or written. Whatever is asked of a
session, what becomes of it is such a row of calls; and only a request that may open the
session, or send a command on it, has calls with tags among them.
-/
namespace ImapSession

/-- A line that is handed to a link, and whether the link takes it. -/
structure Call where
  tag : Option UInt64
  text : String
  sensitive : Bool
  taken : Bool
  deriving DecidableEq, Repr

namespace Call

def behind (c : Call) (text : String) : String :=
  match c.tag with
  | some t => tagged t text
  | none => text

def line (c : Call) : String := c.behind c.text

/-- What the record may hold of the line. -/
def shown (c : Call) : String := if c.sensitive then c.behind Op.redacted else c.line

def tags (calls : List Call) : List UInt64 := calls.filterMap Call.tag

def recorded (calls : List Call) : List (String × String) :=
  (calls.filter Call.taken).map fun c => (c.line, c.shown)

@[simp] theorem tags_append (calls more : List Call) :
    tags (calls ++ more) = tags calls ++ tags more :=
  List.filterMap_append

@[simp] theorem recorded_append (calls more : List Call) :
    recorded (calls ++ more) = recorded calls ++ recorded more := by
  simp [recorded]

end Call

/-- The lines that an opening may take, if this login command was kept: commands, each behind a
tag, and the two texts with which a digest exchange goes on, which have none. -/
inductive Call.OfOpening (kept : Option String) : Call → Prop
  | offer (tag : UInt64) (taken : Bool) : OfOpening kept ⟨some tag, "CAPABILITY", false, taken⟩
  | agree (tag : UInt64) (taken : Bool) : OfOpening kept ⟨some tag, "STARTTLS", false, taken⟩
  | login (tag : UInt64) (taken : Bool) {q : String}
      (phrase : kept = some q ∨ ∃ username password, Op.phrase username password = .ok q) :
      OfOpening kept ⟨some tag, q, true, taken⟩
  | authenticate (tag : UInt64) (taken : Bool) :
      OfOpening kept ⟨some tag, "AUTHENTICATE DIGEST-MD5", false, taken⟩
  | answer (x : Exchange) (taken : Bool) :
      OfOpening kept ⟨none, Exchange.encode x.answer, true, taken⟩
  | finish (taken : Bool) : OfOpening kept ⟨none, "", false, taken⟩

/-- The calls that a request may come to. A command of the caller has a tag and a payload has
none; a session is opened only for a command, or where nothing else is asked. -/
inductive Request.Hands (s : Session) : Request → Call → Prop
  | send (command : String) (sensitive : Bool) (tag : UInt64) (taken : Bool) :
      Hands s (.send command sensitive) ⟨some tag, command, sensitive, taken⟩
  | execute (command : String) (sensitive : Bool) (tag : UInt64) (taken : Bool) :
      Hands s (.execute command sensitive) ⟨some tag, command, sensitive, taken⟩
  | resume (payload : String) (sensitive : Bool) (taken : Bool) :
      Hands s (.resume payload sensitive) ⟨none, payload, sensitive, taken⟩
  | opening {r : Request} {c : Call} (opens : r.opens = true)
      (line : c.OfOpening s.loginPhrase) : Hands s r c

def written (log : List Event) : List (String × String) :=
  log.filterMap fun e =>
    match e.act with
    | .write line shown => some (line, shown)
    | _ => none

@[simp] theorem written_append (log log' : List Event) :
    written (log ++ log') = written log ++ written log' := List.filterMap_append

theorem written_aside {es : List Event} (aside : ∀ e ∈ es, e.act.aside) : written es = [] := by
  rw [written, List.filterMap_eq_nil_iff]
  intro e he
  have ha := aside e he
  cases hc : e.act with
  | write line shown =>
    rw [hc] at ha
    cases ha
  | _ => rfl

@[simp] theorem World.dialled_accounts (w : World) (k : Nat) :
    (w.dialled k).accounts = w.accounts :=
  Opening.accounts_dial w k

@[simp] theorem World.dialled_tags (w : World) (k : Nat) : (w.dialled k).tags = w.tags :=
  Opening.tags_dial w k

@[simp] theorem World.dialled_written (w : World) (k : Nat) :
    written (w.dialled k).log = written w.log := by
  simp [dialled, written]

namespace Scene

def drawn (s : Scene) : Scene :=
  { s with world := { s.world with tags := (s.world.tags.draw s.session.counter).2 } }

@[simp] theorem drawn_session (s : Scene) : s.drawn.session = s.session := rfl

@[simp] theorem drawn_accounts (s : Scene) : s.drawn.world.accounts = s.world.accounts := rfl

@[simp] theorem drawn_log (s : Scene) : s.drawn.world.log = s.world.log := rfl

@[simp] theorem drawn_tags (s : Scene) : s.drawn.world.tags =
    put s.world.tags s.session.counter (Opening.lastTag s + 1) := rfl

@[simp] theorem lastTag_drawn (s : Scene) :
    Opening.lastTag s.drawn = Opening.lastTag s + 1 := by
  simp [Opening.lastTag]

/-- A line was handed to this link; it is recorded if the link took it. -/
def handed (s : Scene) (l : Link) (line shown : String) : Scene where
  session := { s.session with link := some (l.write line).2 }
  world :=
    match (l.write line).1 with
    | .ok () => s.world.record l.owner (.write line shown)
    | .error _ => s.world

/-- Nothing was drawn, and nothing was written or dialled, from here to there; there is no
link that was not there before. -/
structure Rests (s t : Scene) : Prop where
  counter : t.session.counter = s.session.counter
  accounts : t.world.accounts = s.world.accounts
  supplies : t.world.supplies = s.world.supplies
  tags : t.world.tags = s.world.tags
  log : ∃ es, t.world.log = s.world.log ++ es ∧ ∀ e ∈ es, e.act.aside
  link : ∀ m, t.session.link = some m → ∃ l, s.session.link = some l ∧ l.Rests m

theorem Rests.refl (s : Scene) : s.Rests s :=
  ⟨rfl, rfl, rfl, rfl, ⟨[], by simp, nofun⟩, fun m hm => ⟨m, hm, m.rests_refl⟩⟩

/-- The session is another, with a link that was not written to. -/
theorem Rests.turn {s : Scene} {v : Session} (counter : v.counter = s.session.counter)
    (link : ∀ m, v.link = some m → ∃ l, s.session.link = some l ∧ l.Rests m) :
    s.Rests { s with session := v } :=
  ⟨counter, rfl, rfl, rfl, ⟨[], by simp, nofun⟩, link⟩

/-- A session that keeps its link as it is hands nothing to it. -/
theorem Rests.of_link {s : Scene} {v : Session} (counter : v.counter = s.session.counter)
    (link : v.link = s.session.link) : s.Rests { s with session := v } :=
  .turn counter fun m hm => ⟨m, link.symm.trans hm, m.rests_refl⟩

theorem rests_record (s : Scene) (k : Nat) {a : Act} (aside : a.aside) :
    s.Rests { s with world := s.world.record k a } :=
  ⟨rfl, rfl, rfl, rfl, ⟨[⟨k, a⟩], rfl, by simpa using aside⟩,
    fun m hm => ⟨m, hm, m.rests_refl⟩⟩

theorem Rests.written {s t : Scene} (h : s.Rests t) :
    ImapSession.written t.world.log = ImapSession.written s.world.log := by
  obtain ⟨es, log, aside⟩ := h.log
  simp [log, written_aside aside]

end Scene

/-- What a call makes of a scene. A tag is the one next to the last that was drawn. -/
def Call.Made (c : Call) (s t : Scene) : Prop :=
  ∃ l, s.session.link = some l ∧ c.taken = (l.write c.line).1.isOk ∧
    match c.tag with
    | some tag => tag = Opening.lastTag s + 1 ∧ t = s.drawn.handed l c.line c.shown
    | none => t = s.handed l c.line c.shown

/-- From one scene to the other these calls are made, in this order, and no others. Links
come from the account that the session is bound to, one after the other. -/
inductive Calls (s : Scene) : List Call → Scene → Prop
  | none : Calls s [] s
  | rest {calls : List Call} {t u : Scene} (before : Calls s calls t) (rests : t.Rests u) :
      Calls s calls u
  | dial {calls : List Call} {t u : Scene} {k : Nat} {r : Except Failure Unit}
      (before : Calls s calls t) (bound : t.session.account = some k)
      (taken : Op.taking k t = Op.ending r u) : Calls s calls u
  | call {calls : List Call} {c : Call} {t u : Scene} (before : Calls s calls t)
      (made : c.Made t u) : Calls s (calls ++ [c]) u

namespace Op

variable {s : Scene} {l : Link}

theorem write_handed (line shown : String) (linked : s.session.link = some l) :
    write line shown s = ending ((l.write line).1.mapError .link) (s.handed l line shown) := by
  have held : link s = .ok l s := demand_some linked
  have owner := l.owner_write line
  rw [write, bind_ok held]
  unfold Scene.handed
  rcases hw : l.write line with ⟨result, m⟩
  rw [hw] at owner
  dsimp only at owner
  cases result with
  | ok u =>
    rw [← owner]
    rfl
  | error f => rfl

/-- A command is handed over behind the next tag, which is the answer. -/
theorem sendTagged_handed (command : String) (sensitive : Bool) (linked : s.session.link = some l) :
    let tag := Opening.lastTag s + 1
    let line := tagged tag command
    sendTagged command sensitive s =
      ending ((l.write line).1.mapError Failure.link |>.map fun _ => toString tag.toNat)
        (s.drawn.handed l line (if sensitive then tagged tag redacted else line)) := by
  intro tag line
  have made := write_handed (s := s.drawn) line
    (if sensitive then tagged tag redacted else line) linked
  have sent : sendTagged command sensitive s = (do
      write line (if sensitive then tagged tag redacted else line)
      pure (toString tag.toNat)) s.drawn := rfl
  rw [sent]
  cases hw : (l.write line).1 with
  | ok u =>
    rw [hw] at made
    rw [bind_ok made]
    rfl
  | error f =>
    rw [hw] at made
    rw [bind_error made]
    rfl

end Op

/-- A text that is handed over is a call without a tag. -/
theorem Call.made_text {s : Scene} {l : Link} (linked : s.session.link = some l) (text : String)
    (sensitive : Bool) : Call.Made ⟨none, text, sensitive, (l.write text).1.isOk⟩ s
      (s.handed l text (if sensitive then Op.redacted else text)) :=
  ⟨l, linked, rfl, rfl⟩

/-- A command that is handed over behind the next tag is a call with this tag. -/
theorem Call.made_command {s : Scene} {l : Link} (linked : s.session.link = some l)
    (command : String) (sensitive : Bool) :
    let tag := Opening.lastTag s + 1
    let line := tagged tag command
    Call.Made ⟨some tag, command, sensitive, (l.write line).1.isOk⟩ s
      (s.drawn.handed l line (if sensitive then tagged tag Op.redacted else line)) :=
  ⟨l, linked, rfl, rfl, rfl⟩

namespace Calls

variable {s t u : Scene} {calls more : List Call}

theorem trans (h : Calls s calls t) (h' : Calls t more u) : Calls s (calls ++ more) u := by
  induction h' with
  | none => simpa using h
  | rest _ rests ih => exact .rest ih rests
  | dial _ bound taken ih => exact .dial ih bound taken
  | call _ made ih =>
    rw [← List.append_assoc]
    exact .call ih made

end Calls

/-- A line is recorded if the link takes it. -/
theorem Scene.handed_eq (s : Scene) (l : Link) (line shown : String) : s.handed l line shown =
    { session := { s.session with link := some (l.write line).2 }
      world := { s.world with log := s.world.log ++
        if (l.write line).1.isOk then [⟨l.owner, .write line shown⟩] else [] } } := by
  unfold handed
  cases (l.write line).1 with
  | ok => simp [World.record, Except.isOk, Except.toBool]
  | error => simp [Except.isOk, Except.toBool]

@[simp] theorem Scene.handed_tags (s : Scene) (l : Link) (line shown : String) :
    (s.handed l line shown).world.tags = s.world.tags := by
  rw [handed_eq]

@[simp] theorem Scene.handed_accounts (s : Scene) (l : Link) (line shown : String) :
    (s.handed l line shown).world.accounts = s.world.accounts := by
  rw [handed_eq]

theorem Scene.handed_written (s : Scene) (l : Link) (line shown : String) :
    ImapSession.written (s.handed l line shown).world.log =
      ImapSession.written s.world.log ++ if (l.write line).1.isOk then [(line, shown)] else [] := by
  rw [handed_eq, written_append]
  cases (l.write line).1.isOk <;> rfl

namespace Call.Made

variable {c : Call} {s t : Scene}

/-- The line is handed over as things stand, or when a tag has been drawn for it. -/
theorem handed (h : c.Made s t) : ∃ l u, c.taken = (l.write c.line).1.isOk ∧
    t = u.handed l c.line c.shown ∧
    (c.tag = none ∧ u = s ∨ c.tag = some (Opening.lastTag s + 1) ∧ u = s.drawn) := by
  obtain ⟨l, -, taken, made⟩ := h
  cases hc : c.tag with
  | none =>
    simp only [hc] at made
    exact ⟨l, s, taken, made, .inl ⟨rfl, rfl⟩⟩
  | some tag =>
    simp only [hc] at made
    exact ⟨l, s.drawn, taken, made.2, .inr ⟨by rw [made.1], rfl⟩⟩

/-- A call leaves the session at its counter. -/
theorem counter (h : c.Made s t) : t.session.counter = s.session.counter := by
  obtain ⟨l, u, -, rfl, ⟨-, rfl⟩ | ⟨-, rfl⟩⟩ := h.handed
  · rfl
  · rfl

theorem accounts (h : c.Made s t) : t.world.accounts = s.world.accounts := by
  obtain ⟨l, u, -, rfl, ⟨-, rfl⟩ | ⟨-, rfl⟩⟩ := h.handed
  · simp
  · simp

/-- A call with a tag draws one; without a tag nothing is drawn. -/
theorem tags (h : c.Made s t) : t.world.tags =
    put s.world.tags s.session.counter
      (Opening.lastTag s + UInt64.ofNat (Call.tags [c]).length) ∧
    ∀ tag ∈ c.tag, tag = Opening.lastTag s + 1 := by
  obtain ⟨l, u, -, rfl, ⟨none, rfl⟩ | ⟨some, rfl⟩⟩ := h.handed
  · simp [Call.tags, none, Opening.lastTag]
  · simp [Call.tags, some]

theorem recorded (h : c.Made s t) :
    written t.world.log = written s.world.log ++ Call.recorded [c] := by
  obtain ⟨l, u, taken, rfl, drawn⟩ := h.handed
  have same : u.world.log = s.world.log := by
    obtain ⟨-, rfl⟩ | ⟨-, rfl⟩ := drawn
    · rfl
    · exact s.drawn_log
  have one : Call.recorded [c] = if (l.write c.line).1.isOk then [(c.line, c.shown)] else [] := by
    rw [← taken]
    cases ht : c.taken <;> simp [Call.recorded, ht]
  rw [one, Scene.handed_written, same]

end Call.Made

def following (t : UInt64) (n : Nat) : List UInt64 :=
  (List.range n).map fun i => t + UInt64.ofNat (i + 1)

theorem following_add (t : UInt64) (m n : Nat) :
    following t (m + n) = following t m ++ following (t + UInt64.ofNat m) n := by
  simp only [following, List.range_add, List.map_append, List.map_map]
  congr 1
  apply List.map_congr_left
  intro i _
  simp only [Function.comp]
  rw [Nat.add_assoc, UInt64.ofNat_add, UInt64.add_assoc]

/-- As long as the counter does not come round, the tags are consecutive numbers. -/
theorem following_toNat {t : UInt64} {n : Nat} (room : t.toNat + n < UInt64.size) :
    (following t n).map UInt64.toNat = List.range' (t.toNat + 1) n := by
  rw [List.range'_eq_map_range, following, List.map_map]
  apply List.map_congr_left
  intro i hi
  have below := List.mem_range.1 hi
  simp only [Function.comp, UInt64.toNat_add, UInt64.toNat_ofNat']
  simp only [UInt64.size] at room
  omega

namespace Calls

variable {s t u : Scene} {calls more : List Call}

theorem counter (h : Calls s calls t) : t.session.counter = s.session.counter := by
  induction h with
  | none => rfl
  | rest _ rests ih => rw [rests.counter, ih]
  | dial _ _ taken ih => rw [(Op.dialled_of_taking taken).counter, ih]
  | call _ made ih => rw [made.counter, ih]

theorem accounts (h : Calls s calls t) : t.world.accounts = s.world.accounts := by
  induction h with
  | none => rfl
  | rest _ rests ih => rw [rests.accounts, ih]
  | dial _ _ taken ih => simp [(Op.dialled_of_taking taken).world, ih]
  | call _ made ih => rw [made.accounts, ih]

/-- The tags are drawn one after the other, one for each call that has one. -/
theorem drawn (h : Calls s calls t) :
    t.world.tags = put s.world.tags s.session.counter
      (Opening.lastTag s + UInt64.ofNat (Call.tags calls).length) ∧
    Call.tags calls = following (Opening.lastTag s) (Call.tags calls).length := by
  induction h with
  | none => simp [Call.tags, following, Opening.lastTag]
  | rest _ rests ih => exact ⟨rests.tags.trans ih.1, ih.2⟩
  | dial _ _ taken ih => simpa [(Op.dialled_of_taking taken).world] using ih
  | @call calls c t u before made ih =>
    obtain ⟨tags, tag⟩ := made.tags
    have sameCounter : t.session.counter = s.session.counter := before.counter
    have last : Opening.lastTag t =
        Opening.lastTag s + UInt64.ofNat (Call.tags calls).length := by
      simp [Opening.lastTag, ih.1, sameCounter]
    rw [Call.tags_append, List.length_append, UInt64.ofNat_add, ← UInt64.add_assoc, ← last]
    constructor
    · rw [tags, ih.1, before.counter]
      funext j
      by_cases hj : j = s.session.counter
      · subst hj
        simp
      · simp [hj]
    · rw [following_add, ← last, ← ih.2]
      congr 1
      cases hc : c.tag with
      | none => simp [Call.tags, hc, following]
      | some τ => simp [Call.tags, hc, following, tag τ (by simp [hc])]

theorem recorded (h : Calls s calls t) :
    written t.world.log = written s.world.log ++ Call.recorded calls := by
  induction h with
  | none => simp [Call.recorded]
  | rest _ rests ih => rw [rests.written, ih]
  | dial _ _ taken ih => simp [(Op.dialled_of_taking taken).world, ih]
  | call _ made ih => simp [made.recorded, ih]

end Calls

def Call.vocabulary (p : Call → Prop) : Op.Vocabulary where
  texts text sensitive := ∀ taken, p ⟨none, text, sensitive, taken⟩
  commands text sensitive := ∀ tag taken, p ⟨some tag, text, sensitive, taken⟩

theorem Call.vocabulary_all : Call.vocabulary (fun _ => True) = .all := by
  simp [vocabulary, Op.Vocabulary.all]

namespace Op

variable {p : Call → Prop} {L : String → Prop} {s₀ : Scene}

/-- One scene, which has been reached from another by calls of this kind; a login command that
is kept in it is one of these. -/
structure Traced (p : Call → Prop) (L : String → Prop) (s₀ s s' : Scene) : Prop where
  same : s = s'
  calls : ∃ calls, Calls s₀ calls s ∧ ∀ c ∈ calls, p c
  phrase : ∀ q, s.session.loginPhrase = some q → L q

/-- The session may be bound to an account with its counter, and to no other. -/
def SameCounter (s₀ : Scene) (k : Nat) : Prop :=
  (s₀.world.accounts k).counter = s₀.session.counter

namespace Traced

variable {s t : Scene}

theorem start (phrase : ∀ q, s.session.loginPhrase = some q → L q) : Traced p L s s s :=
  ⟨rfl, ⟨[], .none, nofun⟩, phrase⟩

theorem rest (h : Traced p L s₀ s s) (rests : s.Rests t)
    (phrase : ∀ q, t.session.loginPhrase = some q → L q) : Traced p L s₀ t t := by
  obtain ⟨calls, made, all⟩ := h.calls
  exact ⟨rfl, ⟨calls, .rest made rests, all⟩, phrase⟩

theorem call {c : Call} (h : Traced p L s₀ s s) (made : c.Made s t) (hp : p c)
    (kept : t.session.loginPhrase = s.session.loginPhrase) : Traced p L s₀ t t := by
  obtain ⟨calls, before, all⟩ := h.calls
  refine ⟨rfl, ⟨calls ++ [c], .call before made, ?_⟩, ?_⟩
  · simpa [or_imp, forall_and] using ⟨all, hp⟩
  · rw [kept]
    exact h.phrase

end Traced

/-- Whatever leaves the tags and the record of lines alone is no call. -/
theorem keptUnopened_traced :
    KeptUnopened (Call.vocabulary p) (Traced p L s₀) (SameCounter s₀) where
  session h := by rw [h.same]
  shifts := by
    rintro s _ v h shifts
    obtain rfl := h.same
    have same : { v with loginPhrase := s.session.loginPhrase } = v := by rw [← shifts.loginPhrase]
    rw [same]
    refine h.rest (.turn shifts.counter shifts.link) ?_
    rw [shifts.loginPhrase]
    exact h.phrase
  records := by
    rintro s _ k act h aside
    obtain rfl := h.same
    exact h.rest (s.rests_record k aside) h.phrase
  writes := by
    rintro text sensitive said s _ ⟨h, linked⟩
    obtain rfl := h.same
    obtain ⟨l, hl⟩ := Option.isSome_iff_exists.1 linked
    rw [write_handed text _ hl]
    exact match_ending _ (h.call (Call.made_text hl text sensitive) (said _) rfl)
  phrase h := by rw [h.same]
  unbinds := by
    rintro s _ h
    obtain rfl := h.same
    exact h.rest (.of_link rfl rfl) nofun
  binds := by
    rintro s _ k h same
    obtain rfl := h.same
    obtain ⟨calls, made, -⟩ := h.calls
    have counter : (s.world.accounts k).counter = s.session.counter := by
      rw [made.counter, made.accounts]
      exact same
    exact h.rest (.of_link counter rfl) nofun

/-- A tag is drawn by a call, and by nothing else. -/
theorem keptThroughout_traced (opens : (Call.vocabulary p).Opens) :
    KeptThroughout (Call.vocabulary p)
      (Traced p (fun q => (Call.vocabulary p).commands q true) s₀) Eq (SameCounter s₀) where
  toKeptUnopened := keptUnopened_traced
  opens := opens
  disabled h _ := by rw [h.same]
  dials := by
    rintro k s _ ⟨h, bound⟩
    obtain rfl := h.same
    obtain ⟨r, t, taken⟩ := ends_somehow (taking k) s
    obtain ⟨calls, made, all⟩ := h.calls
    rw [taken]
    refine match_ending r ⟨rfl, ⟨calls, .dial made bound taken, all⟩, ?_⟩
    rw [(dialled_of_taking taken).loginPhrase]
    exact h.phrase
  sends := by
    rintro command sensitive said s _ ⟨h, linked⟩
    obtain rfl := h.same
    obtain ⟨l, hl⟩ := Option.isSome_iff_exists.1 linked
    rw [sendTagged_handed command sensitive hl]
    exact match_ending _ (h.call (Call.made_command hl command sensitive) (said _ _) rfl)
  accounts h _ := by rw [h.same]
  builds := by
    rintro s _ command h said
    obtain rfl := h.same
    refine h.rest (.of_link rfl rfl) ?_
    rintro q hq
    obtain rfl : command = q := Option.some.inj hq
    exact said
  logs h hq := h.phrase _ hq

end Op

namespace Request

variable {r : Request} {s : Session}

theorem asks_hands : (Call.vocabulary (r.Hands s)).Asks r := by
  cases r with
  | send command sensitive => exact fun tag taken => .send command sensitive tag taken
  | execute command sensitive => exact fun tag taken => .execute command sensitive tag taken
  | resume payload sensitive => exact fun taken => .resume payload sensitive taken
  | _ => trivial

theorem opens_hands (opens : r.opens = true) : (Call.vocabulary (r.Hands s)).Opens where
  offer tag taken := .opening opens (.offer tag taken)
  agree tag taken := .opening opens (.agree tag taken)
  login built tag taken := .opening opens (.login tag taken (.inr ⟨_, _, built⟩))
  authenticate tag taken := .opening opens (.authenticate tag taken)
  answer x taken := .opening opens (.answer x taken)
  finish taken := .opening opens (.finish taken)

/-- Where nothing is opened no call has a tag. -/
theorem Hands.untagged {c : Call} (h : r.Hands s c) (closed : r.opens = false) : c.tag = none := by
  cases h with
  | send | execute => cases closed
  | resume => rfl
  | opening opens => simp [opens] at closed

/-- What becomes of a session that is asked something is a row of calls, all of them such as
the request may come to. -/
theorem serve_calls {s : Scene} (within : ∀ k, r = .bind k → Op.SameCounter s k) :
    ∃ calls, Calls s calls (r.serve s).2 ∧ ∀ c ∈ calls, r.Hands s.session c := by
  have said : (Call.vocabulary (r.Hands s.session)).Asks r := asks_hands
  by_cases opens : r.opens = true
  · have start := Op.Traced.start (p := r.Hands s.session) (s := s)
      (L := fun q => (Call.vocabulary (r.Hands s.session)).commands q true)
      fun q hq tag taken => .opening opens (.login tag taken (.inl hq))
    have kept : Op.KeptThroughout (Call.vocabulary (r.Hands s.session))
        (Op.Traced (r.Hands s.session)
          (fun q => (Call.vocabulary (r.Hands s.session)).commands q true) s) Eq
        (Op.SameCounter s) :=
      Op.keptThroughout_traced (opens_hands opens)
    exact ((kept.request said within).serve start).2.calls
  · have kept : Op.KeptUnopened (Call.vocabulary (r.Hands s.session))
        (Op.Traced (r.Hands s.session) (fun _ => True) s) (Op.SameCounter s) :=
      Op.keptUnopened_traced
    have start : Op.Traced (r.Hands s.session) (fun _ => True) s s s := .start fun _ _ => trivial
    have made := kept.request (T := Eq) (by simpa using opens) said within
    exact (made.serve start).2.calls

end Request

end ImapSession
