import ImapSession.Proofs.Calling
import ImapSession.Proofs.Hearing

/-!
What the record shows of a login. Two accounts may differ in user name and password, one of
them or both of them may lack these, and everything else be the same: then all that is shown
of the lines of an attempt is the same as far as both of them come. Before the login nothing
depends on the credentials. In the login all that does is shown redacted, fits on a line, and
so is taken or refused by the link like any other line. What the server says may tell the two
apart, and so may a missing credential or a line end in it; then the one stops and the other
goes on.
-/
namespace ImapSession

/-- A call without the text that is not shown. -/
def Call.masked (c : Call) : Call := if c.sensitive then { c with text := "" } else c

theorem Call.taken_masked (c : Call) : c.masked.taken = c.taken := by
  unfold masked
  split <;> rfl

theorem Call.shown_masked (c : Call) : c.masked.shown = c.shown := by
  unfold masked
  split
  · rename_i sensitive
    simp only [shown, sensitive, if_true, behind]
  · rfl

def World.withCredentials (w : World) (k : Nat) (username password : Option String) : World :=
  { w with accounts := put w.accounts k { w.accounts k with username, password } }

/-- The second text is the first, or both are redacted and fit on a line. -/
def Hidden (sensitive : Bool) (text text' : String) : Prop :=
  text' = text ∨ sensitive = true ∧ Flat text ∧ Flat text'

/-- A link does the same with both, behind whatever tag. -/
theorem Hidden.write {sensitive : Bool} {text text' : String} (h : Hidden sensitive text text')
    (l : Link) : l.write text' = l.write text := by
  rcases h with rfl | ⟨-, flat, flat'⟩
  · rfl
  · exact l.write_flat flat flat'

theorem Hidden.tagged {sensitive : Bool} {text text' : String} (h : Hidden sensitive text text')
    (t : UInt64) : Hidden sensitive (tagged t text) (tagged t text') := by
  rcases h with rfl | ⟨hidden, flat, flat'⟩
  · exact .inl rfl
  · exact .inr ⟨hidden, flat_tagged flat t, flat_tagged flat' t⟩

/-- Calls with these texts are shown alike. -/
theorem Hidden.masked {sensitive : Bool} {text text' : String} (h : Hidden sensitive text text')
    (tag : Option UInt64) (taken : Bool) :
    Call.masked ⟨tag, text', sensitive, taken⟩ = Call.masked ⟨tag, text, sensitive, taken⟩ := by
  rcases h with rfl | ⟨hidden, -⟩
  · rfl
  · simp [Call.masked, hidden]

namespace Op

variable {α β : Type} {k : Nat} {s₀ s₀' s s' t t' : Scene} {P : Scene → Scene → Prop}
variable {V : α → α → Prop}

def Level (s₀ s₀' t t' : Scene) : Prop :=
  ∃ calls calls', Calls s₀ calls t ∧ Calls s₀' calls' t' ∧
    calls'.map Call.masked = calls.map Call.masked

/-- What was shown in the first scene was shown in the second one, and maybe more. -/
def Behind (s₀ s₀' t t' : Scene) : Prop :=
  ∃ calls calls', Calls s₀ calls t ∧ Calls s₀' calls' t' ∧
    calls.map Call.masked <+: calls'.map Call.masked

theorem Level.behind (h : Level s₀ s₀' t t') : Behind s₀ s₀' t t' := by
  obtain ⟨calls, calls', made, made', same⟩ := h
  exact ⟨calls, calls', made, made', by rw [same]⟩

theorem Level.symm (h : Level s₀ s₀' t t') : Level s₀' s₀ t' t := by
  obtain ⟨calls, calls', made, made', same⟩ := h
  exact ⟨calls', calls, made', made, same.symm⟩

theorem Behind.rest {u u' : Scene} (h : Behind s₀ s₀' t t') (rests : t.Rests u)
    (rests' : t'.Rests u') : Behind s₀ s₀' u u' := by
  obtain ⟨calls, calls', made, made', shown⟩ := h
  exact ⟨calls, calls', .rest made rests, .rest made' rests', shown⟩

theorem Level.rest {u u' : Scene} (h : Level s₀ s₀' t t') (rests : t.Rests u)
    (rests' : t'.Rests u') : Level s₀ s₀' u u' := by
  obtain ⟨calls, calls', made, made', same⟩ := h
  exact ⟨calls, calls', .rest made rests, .rest made' rests', same⟩

theorem Level.ahead {u : Scene} {more : List Call} (h : Level s₀ s₀' t t')
    (made : Calls t' more u) : Behind s₀ s₀' t u := by
  obtain ⟨calls, calls', before, before', same⟩ := h
  refine ⟨calls, calls' ++ more, before, before'.trans made, ?_⟩
  rw [List.map_append, same]
  exact List.prefix_append _ _

/-- Two scenes that are the same but for the credentials of the account and what the
sessions have kept of them. -/
structure Public (k : Nat) (s s' : Scene) : Prop where
  session : s'.session = { s.session with loginPhrase := s'.session.loginPhrase }
  flat : ∀ q, s.session.loginPhrase = some q ∨ s'.session.loginPhrase = some q → Flat q
  bound : s.session.account = some k
  account : ∃ username password,
    s'.world.accounts k = { s.world.accounts k with username, password }
  supplies : s'.world.supplies k = s.world.supplies k
  tag : Opening.lastTag s' = Opening.lastTag s

/-- Scenes that are the same but for credentials, in which as much was shown. -/
structure Veiled (k : Nat) (s₀ s₀' s s' : Scene) : Prop extends Public k s s' where
  level : Level s₀ s₀' s s'

theorem Public.link (h : Public k s s') : s'.session.link = s.session.link := by
  rw [h.session]

theorem Public.drawn (h : Public k s s') : Public k s.drawn s'.drawn :=
  { h with tag := by simp [h.tag] }

/-- The account gives out the same link in both, and that can be established or not. -/
theorem Public.taking (h : Public k s s') : ∃ r t t', taking k s = ending r t ∧
    taking k s' = ending r t' ∧ Public k t t' := by
  have given : (s'.world.dial k).1 = (s.world.dial k).1 := by
    rw [World.dial_link, World.dial_link, h.supplies]
  have dialled : Public k { s with world := s.world.dialled k }
      { s' with world := s'.world.dialled k } :=
    { h with
      account := by simpa using h.account
      supplies := by
        rw [World.dialled, World.dialled, World.dial_supplies, World.dial_supplies, h.supplies,
          put_same, put_same]
      tag := by simpa [Opening.lastTag] using h.tag }
  rw [taking_eq, taking_eq, given]
  cases (s.world.dial k).1.establish with
  | ok l => exact ⟨.ok (), _, _, rfl, rfl, { dialled with session := by rw [h.session] }⟩
  | error f => exact ⟨.error (.link f), _, _, rfl, rfl, dialled⟩

/-- Lines that the link cannot tell apart are handed to it. -/
theorem Public.handed (h : Public k s s') {l : Link} {line line' : String}
    (same : l.write line' = l.write line) (shown shown' : String) :
    Public k (s.handed l line shown) (s'.handed l line' shown') := by
  rw [Scene.handed_eq, Scene.handed_eq, same]
  exact { h with session := by rw [h.session] }

theorem Level.dial {r : Except Failure Unit} (h : Level s₀ s₀' s s')
    (bound : s.session.account = some k) (bound' : s'.session.account = some k)
    (taken : taking k s = ending r t) (taken' : taking k s' = ending r t') :
    Level s₀ s₀' t t' := by
  obtain ⟨calls, calls', before, before', same⟩ := h
  exact ⟨calls, calls', .dial before bound taken, .dial before' bound' taken', same⟩

/-- Calls that are shown alike are made in both. -/
theorem Level.call {c d : Call} (h : Level s₀ s₀' s s') (made : c.Made s t)
    (made' : d.Made s' t') (masked : d.masked = c.masked) : Level s₀ s₀' t t' := by
  obtain ⟨calls, calls', before, before', same⟩ := h
  refine ⟨calls ++ [c], calls' ++ [d], .call before made, .call before' made', ?_⟩
  simp only [List.map_append, same, List.map_singleton, masked]

/-- Texts that are shown alike are written alike. -/
theorem veiled_write {text text' : String} {sensitive : Bool}
    (hidden : Hidden sensitive text text') :
    Coupled (Linked (Veiled k s₀ s₀')) (Veiled k s₀ s₀') (Veiled k s₀ s₀') Eq
      (write text (if sensitive then redacted else text))
      (write text' (if sensitive then redacted else text')) := by
  rintro s s' ⟨h, linked⟩
  obtain ⟨l, hl⟩ := Option.isSome_iff_exists.1 linked
  have hl' : s'.session.link = some l := h.link.trans hl
  have same := hidden.write l
  have made := Call.made_text hl text sensitive
  have made' := Call.made_text hl' text' sensitive
  rw [same] at made'
  rw [write_handed text _ hl, write_handed text' _ hl', same]
  apply match_ending
  exact ⟨h.toPublic.handed same _ _, h.level.call made made' (hidden.masked _ _)⟩

/-- Commands that are shown alike are sent alike. -/
theorem veiled_sendTagged {command command' : String} {sensitive : Bool}
    (hidden : Hidden sensitive command command') :
    Coupled (Linked (Veiled k s₀ s₀')) (Veiled k s₀ s₀') (Veiled k s₀ s₀') Eq
      (sendTagged command sensitive) (sendTagged command' sensitive) := by
  rintro s s' ⟨h, linked⟩
  obtain ⟨l, hl⟩ := Option.isSome_iff_exists.1 linked
  have hl' : s'.session.link = some l := h.link.trans hl
  have same := (hidden.tagged (Opening.lastTag s + 1)).write l
  have sent' := sendTagged_handed command' sensitive hl'
  have made := Call.made_command hl command sensitive
  have made' := Call.made_command hl' command' sensitive
  dsimp only at made made'
  rw [h.tag] at sent'
  rw [h.tag, same] at made'
  rw [sendTagged_handed command sensitive hl, sent', same]
  apply match_ending
  exact ⟨h.toPublic.drawn.handed same _ _, h.level.call made made' (hidden.masked _ _)⟩

/-- Up to the login nothing depends on the credentials. -/
theorem keptToLogin_veiled : KeptToLogin .all (Veiled k s₀ s₀') Eq where
  opens := Vocabulary.opens_all
  session h := h.session
  shifts {s s' v} h shifts :=
    { session := rfl
      flat := fun q => by
        rw [shifts.loginPhrase]
        exact h.flat q
      bound := shifts.account.trans h.bound
      account := h.account
      supplies := h.supplies
      tag := by
        have tag := h.tag
        have counter : s'.session.counter = s.session.counter := by rw [h.session]
        rw [Opening.lastTag, Opening.lastTag, counter] at tag
        rw [Opening.lastTag, Opening.lastTag, shifts.counter]
        exact tag
      level := by
        have counter : s'.session.counter = s.session.counter := by rw [h.session]
        refine h.level.rest (.turn shifts.counter shifts.link)
          (.turn (shifts.counter.trans counter.symm) fun m hm => ?_)
        rw [h.link]
        exact shifts.link m hm }
  records j act h aside :=
    { h with level := h.level.rest (Scene.rests_record _ j aside) (Scene.rests_record _ j aside) }
  writes _ := veiled_write (.inl rfl)
  disabled {s s' j} h hk := by
    obtain rfl : k = j := Option.some.inj (h.bound.symm.trans hk)
    obtain ⟨username, password, account⟩ := h.account
    rw [account]
  dials := by
    rintro j s s' ⟨h, hk⟩
    obtain rfl : k = j := Option.some.inj (h.bound.symm.trans hk)
    obtain ⟨r, t, t', taken, taken', dialled⟩ := h.toPublic.taking
    rw [taken, taken']
    refine match_ending r { dialled with level := h.level.dial h.bound ?_ taken taken' }
    rw [h.session, h.bound]
  sends _ := veiled_sendTagged (.inl rfl)

/-- A command that logs in is sent and answered alike. -/
theorem veiled_run {command command' : String} {sensitive : Bool}
    (hidden : Hidden sensitive command command') :
    Coupled (Linked (Veiled k s₀ s₀')) (Linked (Veiled k s₀ s₀')) (Linked (Veiled k s₀ s₀')) Eq
      (run command sensitive) (run command' sensitive) := by
  refine Coupled.linked ?_ (keeps_run lasting_linked.toSteady _ _)
  exact coupled_bind (veiled_sendTagged hidden) fun _ _ _ => keptToLogin_veiled.collect

theorem veiled_resume {payload payload' : String} {sensitive : Bool}
    (hidden : Hidden sensitive payload payload') :
    Coupled (Linked (Veiled k s₀ s₀')) (Linked (Veiled k s₀ s₀')) (Linked (Veiled k s₀ s₀')) Eq
      (resume payload sensitive) (resume payload' sensitive) := by
  refine Coupled.linked ?_ (keeps_resume lasting_linked.toSteady _ _)
  exact coupled_bind (veiled_write hidden) fun _ _ _ => keptToLogin_veiled.collect

/-- However an operation ends, what it does on a link are calls. -/
def Calling (op : Op α) : Prop := ∀ s : Scene, s.session.link.isSome →
  Ends op s (fun _ t => ∃ more, Calls s more t) (fun _ t => ∃ more, Calls s more t)

theorem calling_of_coupled {op : Op α}
    (h : ∀ (R : Scene → Scene → Prop) (B : Nat → Prop), KeptThroughout .all R Eq B →
      Coupled (Linked R) (Linked R) (Linked R) Eq op op) : Calling op := by
  intro s linked
  have start := Traced.start (p := fun _ => True) (L := fun q => Vocabulary.all.commands q true)
    (s := s) fun _ _ => trivial
  have kept : KeptThroughout (Call.vocabulary fun _ => True)
      (Traced (fun _ => True) (fun q => (Call.vocabulary fun _ => True).commands q true) s)
      Eq (SameCounter s) :=
    keptThroughout_traced (Call.vocabulary_all ▸ Vocabulary.opens_all)
  rw [Call.vocabulary_all] at kept
  have made := h _ _ kept s s ⟨start, linked⟩
  unfold Ends
  cases hr : op s with
  | ok a t =>
    rw [hr] at made
    obtain ⟨more, calls, -⟩ := made.2.1.calls
    exact ⟨more, calls⟩
  | error e t =>
    rw [hr] at made
    obtain ⟨more, calls, -⟩ := made.2.1.calls
    exact ⟨more, calls⟩

/-- How two logins end. As much was shown in both if both end well; a login that fails is
not ahead of one that does not; and of two that fail the one has shown what the other has. -/
def Parted (s₀ s₀' : Scene) : EStateM.Result Failure Scene α → EStateM.Result Failure Scene α → Prop
  | .ok _ t, .ok _ t' => Level s₀ s₀' t t'
  | .error _ t, .ok _ t' => Behind s₀ s₀' t t'
  | .ok _ t, .error _ t' => Behind s₀' s₀ t' t
  | .error _ t, .error _ t' => Behind s₀ s₀' t t' ∨ Behind s₀' s₀ t' t

def Veils (s₀ s₀' : Scene) (P : Scene → Scene → Prop) (op op' : Op α) : Prop :=
  ∀ s s', P s s' → Parted s₀ s₀' (op s) (op' s')

/-- Operations that go together all the way show as much as each other. -/
theorem Coupled.veils {Q E : Scene → Scene → Prop} {op op' : Op α} (h : Coupled P Q E V op op')
    (good : ∀ t t', Q t t' → Level s₀ s₀' t t') (bad : ∀ t t', E t t' → Level s₀ s₀' t t') :
    Veils s₀ s₀' P op op' := by
  intro s s' hs
  rcases h.ends hs with ⟨a, a', t, t', hr, hr', -, ht⟩ | ⟨e, t, t', hr, hr', ht⟩
  · rw [hr, hr']
    exact good t t' ht
  · rw [hr, hr']
    exact .inl (bad t t' ht).behind

/-- What goes together at first may part later. -/
theorem veils_bind {Q E : Scene → Scene → Prop} {op op' : Op α} {f f' : α → Op β}
    (h : Coupled P Q E V op op') (bad : ∀ t t', E t t' → Level s₀ s₀' t t')
    (next : ∀ a a', V a a' → Veils s₀ s₀' Q (f a) (f' a')) :
    Veils s₀ s₀' P (op >>= f) (op' >>= f') := by
  intro s s' hs
  rcases h.ends hs with ⟨a, a', t, t', hr, hr', together, ht⟩ | ⟨e, t, t', hr, hr', ht⟩
  · rw [bind_ok hr, bind_ok hr']
    exact next a a' together t t' ht
  · rw [bind_error hr, bind_error hr']
    exact .inl (bad t t' ht).behind

/-- The first one has stopped, and the second one goes on. -/
theorem Calling.after {op : Op α} {u : Scene} (goes : Calling op) (h : Level s₀ s₀' u t)
    (linked : t.session.link.isSome) (e : Failure) : Parted s₀ s₀' (.error e u) (op t) := by
  have went := goes t linked
  unfold Ends at went
  cases hr : op t with
  | ok a v =>
    rw [hr] at went
    obtain ⟨more, calls⟩ := went
    exact h.ahead calls
  | error e' v =>
    rw [hr] at went
    obtain ⟨more, calls⟩ := went
    exact .inl (h.ahead calls)

theorem Parted.symm {x x' : EStateM.Result Failure Scene α} (h : Parted s₀ s₀' x x') :
    Parted s₀' s₀ x' x := by
  cases x with
  | ok a t =>
    cases x' with
    | ok a' t' => exact Level.symm h
    | error e' t' => exact h
  | error e t =>
    cases x' with
    | ok a' t' => exact h
    | error e' t' => exact Or.symm h

/-- The two look for something without a call, and either may not find it. -/
def Loose (R : Scene → Scene → Prop) (V : α → α → Prop) (op op' : Op α) : Prop :=
  ∀ s s', Linked R s s' → ∃ r r' t t', op s = ending r t ∧ op' s' = ending r' t' ∧
    Linked R t t' ∧ ∀ a a', r = .ok a → r' = .ok a' → V a a'

theorem loose_settle {R : Scene → Scene → Prop} (r r' : Except Failure α) :
    Loose R (fun _ _ => True) (settle r) (settle r') := by
  intro s s' hs
  refine ⟨r, r', s, s', ?_, ?_, hs, fun _ _ _ _ => trivial⟩
  · cases r <;> rfl
  · cases r' <;> rfl

/-- Where only one of them finds it, that one goes on alone. -/
theorem veils_loose {op op' : Op α} {f f' : α → Op β}
    (h : Loose (Veiled k s₀ s₀') V op op') (goes : ∀ a, Calling (f a)) (goes' : ∀ a, Calling (f' a))
    (next : ∀ a a', V a a' → Veils s₀ s₀' (Linked (Veiled k s₀ s₀')) (f a) (f' a')) :
    Veils s₀ s₀' (Linked (Veiled k s₀ s₀')) (op >>= f) (op' >>= f') := by
  intro s s' hs
  obtain ⟨r, r', t, t', made, made', ht, together⟩ := h s s' hs
  have linked' : t'.session.link.isSome := by
    rw [ht.1.link]
    exact ht.2
  cases r with
  | ok a =>
    rw [bind_ok made]
    cases r' with
    | ok a' =>
      rw [bind_ok made']
      exact next a a' (together a a' rfl rfl) t t' ht
    | error e' =>
      have ahead := (goes a).after ht.1.level.symm ht.2 e'
      rw [bind_error made']
      exact ahead.symm
  | error e =>
    rw [bind_error made]
    cases r' with
    | ok a' =>
      rw [bind_ok made']
      exact (goes' a').after ht.1.level linked' e
    | error e' =>
      rw [bind_error made']
      exact .inl ht.1.level.behind

theorem linked_level {t t' : Scene} (h : Linked (Veiled k s₀ s₀') t t') : Level s₀ s₀' t t' :=
  h.1.level

theorem Coupled.veiled {op op' : Op α} (h : Coupled (Linked (Veiled k s₀ s₀'))
      (Linked (Veiled k s₀ s₀')) (Linked (Veiled k s₀ s₀')) V op op') :
    Veils s₀ s₀' (Linked (Veiled k s₀ s₀')) op op' :=
  h.veils (fun _ _ => linked_level) fun _ _ => linked_level

/-- A bound session finds its login command or does not; there is no line end in it. -/
theorem loginPhrase_flat (bound : s.session.account = some k)
    (flat : ∀ q, s.session.loginPhrase = some q → Flat q) :
    ∃ r p, loginPhrase s = ending r { s with session := { s.session with loginPhrase := p } } ∧
      (∀ q, r = .ok q → Flat q) ∧ ∀ q, p = some q → Flat q := by
  cases hq : s.session.loginPhrase with
  | some q =>
    have kept : { s with session := { s.session with loginPhrase := some q } } = s := by rw [← hq]
    refine ⟨.ok q, some q, ?_, by simpa using flat q hq, by simpa using flat q hq⟩
    rw [kept, loginPhrase, hq]
    rfl
  | none =>
    have kept : { s with session := { s.session with loginPhrase := none } } = s := by rw [← hq]
    have fresh : loginPhrase s = newPhrase s := by rw [loginPhrase, hq]
    rw [fresh, newPhrase_eq bound]
    cases hp : (s.world.accounts k).phrase with
    | error e =>
      refine ⟨.error e, none, ?_, by simp, by simp⟩
      rw [kept]
      rfl
    | ok q =>
      exact ⟨.ok q, some q, rfl, by simpa using Account.flat_phrase hp,
        by simpa using Account.flat_phrase hp⟩

/-- Each looks for its own login command. -/
theorem loose_loginPhrase :
    Loose (Veiled k s₀ s₀') (Hidden true) loginPhrase loginPhrase := by
  rintro s s' ⟨h, linked⟩
  have bound' : s'.session.account = some k := by rw [h.session, h.bound]
  obtain ⟨r, p, made, flat, kept⟩ := loginPhrase_flat h.bound fun q hq => h.flat q (.inl hq)
  obtain ⟨r', p', made', flat', kept'⟩ := loginPhrase_flat bound' fun q hq => h.flat q (.inr hq)
  refine ⟨r, r', _, _, made, made', ⟨?_, linked⟩, fun q q' hq hq' =>
    .inr ⟨rfl, flat q hq, flat' q' hq'⟩⟩
  exact { h with
    session := by rw [h.session]
    flat := fun q hq => hq.elim (kept q) (kept' q)
    level := h.level.rest (.of_link rfl rfl) (.of_link rfl rfl) }

theorem veils_plainLogin :
    Veils s₀ s₀' (Linked (Veiled k s₀ s₀')) plainLogin plainLogin := by
  have goes : ∀ q, Calling (do let _ ← run q true : Op Unit) := fun q =>
    calling_of_coupled fun R B kept =>
      coupled_bind (kept.run trivial) fun _ _ _ => coupled_pure rfl
  apply veils_loose loose_loginPhrase goes goes
  intro q q' hidden
  exact (coupled_bind (veiled_run hidden) fun _ _ _ => coupled_pure rfl).veiled

theorem veils_confirming :
    Veils s₀ s₀' (Linked (Veiled k s₀ s₀')) confirming confirming := by
  refine Coupled.veiled (V := Eq) (coupled_bind (veiled_resume (.inl rfl)) ?_)
  rintro rs _ rfl
  exact coupled_ite (coupled_pure rfl) (coupled_throw _)

/-- The answers to the challenge are both redacted. -/
theorem veils_proving (x x' : Exchange) :
    Veils s₀ s₀' (Linked (Veiled k s₀ s₀')) (proving x) (proving x') := by
  have hidden : Hidden true (Exchange.encode x.answer) (Exchange.encode x'.answer) :=
    .inr ⟨rfl, flat_base64 _, flat_base64 _⟩
  have goes : ∀ _ : Unit, Calling confirming := fun _ =>
    calling_of_coupled fun R B kept => kept.confirming
  apply veils_bind (veiled_resume hidden) fun _ _ => linked_level
  rintro rs _ rfl
  exact veils_loose (loose_settle _ _) goes goes fun _ _ _ => veils_confirming

theorem veils_exchanging (a a' : Account) (given given' : String × String) :
    Veils s₀ s₀' (Linked (Veiled k s₀ s₀')) (exchanging a given) (exchanging a' given') := by
  have goes : ∀ x, Calling (proving x) := fun x =>
    calling_of_coupled fun R B kept => kept.proving x
  rintro s s' ⟨h, linked⟩
  have noted : Linked (Veiled k s₀ s₀') { s with world := s.world.record k .nonce }
      { s' with world := s'.world.record k .nonce } :=
    ⟨keptToLogin_veiled.records k .nonce h rfl, linked⟩
  have account : Op.account s = .ok k s := demand_some h.bound
  have account' : Op.account s' = .ok k s' := demand_some (by rw [h.session, h.bound])
  rw [exchanging, exchanging, bind_ok account, bind_ok account']
  refine veils_bind (P := Linked (Veiled k s₀ s₀')) (veiled_run (.inl rfl))
    (fun _ _ => linked_level) ?_ _ _ noted
  rintro rs _ rfl
  exact veils_loose (loose_settle _ _) goes goes fun x x' _ => veils_proving x x'

theorem veils_digestLogin :
    Veils s₀ s₀' (Linked (Veiled k s₀ s₀')) digestLogin digestLogin := by
  have goes : ∀ a given, Calling (exchanging a given) := fun a given =>
    calling_of_coupled fun R B kept => kept.exchanging a given
  rw [digestLogin_eq]
  apply veils_bind ((linked_of keptToLogin_veiled.bound).linked keeps_bound) fun _ _ => linked_level
  intro a a' _
  exact veils_loose (loose_settle _ _) (goes a) (goes a') fun given given' _ =>
    veils_exchanging a a' given given'

/-- What is made of an outcome adds no call, and does not turn failure into success. -/
def Closing (c : Except Failure Unit → Op Unit) : Prop :=
  ∀ r t, ∃ r' u, c r t = ending r' u ∧ r'.isOk = r.isOk ∧ t.Rests u

theorem report_rests (health : Health) (t : Scene) :
    ∃ u, report health t = .ok () u ∧ t.Rests u := by
  refine ⟨_, report_eq health t, ?_⟩
  cases t.session.account with
  | none => exact .refl t
  | some k => exact t.rests_record k rfl

theorem closing_judge : Closing judge := by
  intro r t
  have still : t.Rests t := .refl t
  have reported : ∀ e : Failure, ∃ u,
      (do report .badConfiguration; throw e : Op Unit) t = .error e u ∧ t.Rests u := by
    intro e
    obtain ⟨u, made, rests⟩ := report_rests .badConfiguration t
    exact ⟨u, by rw [bind_ok made]; rfl, rests⟩
  cases r with
  | ok => exact ⟨.ok (), t, rfl, rfl, still⟩
  | error e =>
    cases e with
    | refused r =>
      unfold judge
      dsimp only
      split
      · obtain ⟨u, made, rests⟩ := reported (.denied (.refused r))
        exact ⟨.error _, u, made, rfl, rests⟩
      · exact ⟨.error _, t, rfl, rfl, still⟩
    | noCredentials =>
      obtain ⟨u, made, rests⟩ := reported .noCredentials
      exact ⟨.error _, u, made, rfl, rests⟩
    | _ => exact ⟨.error _, t, rfl, rfl, still⟩

theorem closing_conclude : Closing conclude := by
  intro r t
  cases r with
  | ok => exact ⟨.ok (), _, conclude_ok t, rfl, .of_link rfl rfl⟩
  | error e =>
    refine ⟨.error e, _, conclude_error e t, rfl, ?_⟩
    cases e.lateReport? with
    | none => exact .of_link rfl rfl
    | some health =>
      cases t.session.account with
      | none => exact .of_link rfl rfl
      | some k => exact { t.rests_record k (a := .report health) rfl with }

theorem Parted.rest {r r₁ : Except Failure α} {r' r₁' : Except Failure α} {u u' : Scene}
    (h : Parted s₀ s₀' (ending r t) (ending r' t')) (ok : r₁.isOk = r.isOk)
    (ok' : r₁'.isOk = r'.isOk) (rests : t.Rests u) (rests' : t'.Rests u') :
    Parted s₀ s₀' (ending r₁ u) (ending r₁' u') := by
  cases r <;> cases r₁ <;> simp only [Except.isOk, Except.toBool, reduceCtorEq] at ok <;>
    cases r' <;> cases r₁' <;> simp only [Except.isOk, Except.toBool, reduceCtorEq] at ok'
  · exact h.imp (fun b => Behind.rest b rests rests') fun b => Behind.rest b rests' rests
  · exact Behind.rest h rests rests'
  · exact Behind.rest h rests' rests
  · exact Level.rest h rests rests'

/-- What is made of the outcomes leaves the two as they were to each other. -/
theorem veils_closing {op op' : Op Unit} {c : Except Failure Unit → Op Unit} (closing : Closing c)
    (h : Veils s₀ s₀' P op op') : Veils s₀ s₀' P (attempt op >>= c) (attempt op' >>= c) := by
  intro s s' hs
  have parted := h s s' hs
  obtain ⟨r, t, made⟩ := ends_somehow op s
  obtain ⟨r', t', made'⟩ := ends_somehow op' s'
  obtain ⟨r₁, u, closed, ok, rests⟩ := closing r t
  obtain ⟨r₁', u', closed', ok', rests'⟩ := closing r' t'
  rw [made, made'] at parted
  rw [bind_ok (attempt_ending made), bind_ok (attempt_ending made'), closed, closed']
  exact parted.rest ok ok' rests rests'

theorem veils_authenticate :
    Veils s₀ s₀' (Linked (Veiled k s₀ s₀')) authenticate authenticate := by
  rw [authenticate_judge]
  intro s s' hs
  have offers : s'.session.capabilities = s.session.capabilities := by rw [hs.1.session]
  have login : Veils s₀ s₀' (Linked (Veiled k s₀ s₀'))
      (if s.session.capabilities.has digestOffer then digestLogin else plainLogin)
      (if s.session.capabilities.has digestOffer then digestLogin else plainLogin) := by
    split
    · exact veils_digestLogin
    · exact veils_plainLogin
  have looked : ∀ u : Scene, (session >>= fun s =>
      attempt (if s.capabilities.has digestOffer then digestLogin else plainLogin) >>= judge) u =
      (attempt (if u.session.capabilities.has digestOffer then digestLogin else plainLogin) >>=
        judge) u := fun _ => rfl
  rw [looked, looked, offers]
  exact veils_closing closing_judge login s s' hs

theorem veils_attemptOpening :
    Veils s₀ s₀' (Veiled k s₀ s₀') attemptOpening attemptOpening := by
  rw [attemptOpening_eq, establish_prepare]
  exact veils_closing closing_conclude
    (veils_bind keptToLogin_veiled.prepare (fun _ _ h => h.level) fun _ _ _ => veils_authenticate)

theorem connect_bound (w : World) (k : Nat) :
    connect ⟨.bound w k, w⟩ = attemptOpening ⟨.bound w k, w⟩ := by
  have cleared : Opening.cleared ⟨.bound w k, w⟩ = ⟨.bound w k, w⟩ := by
    simp [Opening.cleared, Opening.closing, Session.bound]
  have idle : isReady (Session.bound w k) = false := rfl
  rw [Opening.connect_eq (k := k) rfl idle, cleared]

/-- Two new sessions, in worlds that differ in the credentials of their account. -/
theorem veiled_bound (w : World) (k : Nat) (username password : Option String) :
    let w' := w.withCredentials k username password
    let s : Scene := ⟨.bound w k, w⟩
    let s' : Scene := ⟨.bound w' k, w'⟩
    Veiled k s s' s s' := by
  intro w' s s'
  have account : w'.accounts k = { w.accounts k with username, password } := put_same _ _ _
  have session : s'.session = s.session := by
    simp only [s, s', Session.bound, account]
  have tag : Opening.lastTag s' = Opening.lastTag s := by
    rw [Opening.lastTag, session]
    rfl
  refine ⟨⟨?_, ?_, rfl, ⟨username, password, account⟩, rfl, tag⟩, [], [], .none, .none, rfl⟩
  · rw [session]
  · rw [session]
    rintro q (h | h) <;> cases h

def shownOf (log : List Event) : List String := (written log).map Prod.snd

def Comparable (xs ys : List String) : Prop := xs <+: ys ∨ ys <+: xs

@[simp] theorem shown_calls (calls : List Call) :
    calls.map Call.shown = (calls.map Call.masked).map Call.shown := by
  rw [List.map_map]
  exact List.map_congr_left fun c _ => c.shown_masked.symm

theorem shown_recorded (calls : List Call) : (Call.recorded calls).map Prod.snd =
    ((calls.map Call.masked).filter Call.taken).map Call.shown := by
  rw [Call.recorded, List.filter_map, List.map_map, List.map_map]
  have same : Call.taken ∘ Call.masked = Call.taken := funext Call.taken_masked
  rw [same]
  exact List.map_congr_left fun c _ => c.shown_masked.symm

theorem Calls.shown {calls : List Call} (made : Calls s calls t) : shownOf t.world.log =
    shownOf s.world.log ++ ((calls.map Call.masked).filter Call.taken).map Call.shown := by
  rw [shownOf, made.recorded, List.map_append, shown_recorded, shownOf]

/-- Scenes with the same record, and what was shown after them. -/
theorem Behind.shown (h : Behind s₀ s₀' t t') (same : s₀'.world.log = s₀.world.log) :
    ∃ calls calls', Calls s₀ calls t ∧ Calls s₀' calls' t' ∧
      calls.map Call.shown <+: calls'.map Call.shown ∧
      shownOf t.world.log <+: shownOf t'.world.log := by
  obtain ⟨calls, calls', made, made', before⟩ := h
  refine ⟨calls, calls', made, made', ?_, ?_⟩
  · rw [shown_calls, shown_calls calls']
    exact before.map _
  · rw [Calls.shown made, Calls.shown made', same, List.prefix_append_right_inj]
    exact (before.filter _).map _

theorem Level.shown (h : Level s₀ s₀' t t') (same : s₀'.world.log = s₀.world.log) :
    ∃ calls calls', Calls s₀ calls t ∧ Calls s₀' calls' t' ∧
      calls'.map Call.shown = calls.map Call.shown ∧
      shownOf t'.world.log = shownOf t.world.log := by
  obtain ⟨calls, calls', made, made', level⟩ := h
  refine ⟨calls, calls', made, made', ?_, ?_⟩
  · rw [shown_calls, level, ← shown_calls]
  · rw [Calls.shown made, Calls.shown made', same, level]

/-- All that was handed to the links in two attempts is shown the same in the record, as far
as both of them came, and so is all of it that the links took; if both ended well, it is
shown the same to the end. -/
def Redacted (s₀ s₀' : Scene) (r r' : Except Failure Unit) (t t' : Scene) : Prop :=
  ∃ calls calls', Calls s₀ calls t ∧ Calls s₀' calls' t' ∧
    Comparable (calls.map Call.shown) (calls'.map Call.shown) ∧
    Comparable (shownOf t.world.log) (shownOf t'.world.log) ∧
    (r.isOk → r'.isOk → calls'.map Call.shown = calls.map Call.shown ∧
      shownOf t'.world.log = shownOf t.world.log)

theorem Parted.redacted {r r' : Except Failure Unit}
    (h : Parted s₀ s₀' (ending r t) (ending r' t')) (same : s₀'.world.log = s₀.world.log) :
    Redacted s₀ s₀' r r' t t' := by
  have first : Behind s₀ s₀' t t' → (r.isOk → r'.isOk → False) → Redacted s₀ s₀' r r' t t' := by
    intro behind failed
    obtain ⟨calls, calls', made, made', shown, log⟩ := behind.shown same
    exact ⟨calls, calls', made, made', .inl shown, .inl log, fun ok ok' => (failed ok ok').elim⟩
  have second : Behind s₀' s₀ t' t → (r.isOk → r'.isOk → False) → Redacted s₀ s₀' r r' t t' := by
    intro behind failed
    obtain ⟨calls', calls, made', made, shown, log⟩ := behind.shown same.symm
    exact ⟨calls, calls', made, made', .inr shown, .inr log, fun ok ok' => (failed ok ok').elim⟩
  cases r with
  | ok u =>
    cases r' with
    | ok u' =>
      obtain ⟨calls, calls', made, made', shown, log⟩ := Level.shown h same
      exact ⟨calls, calls', made, made', .inl (by rw [shown]), .inl (by rw [log]),
        fun _ _ => ⟨shown, log⟩⟩
    | error e' => exact second h fun _ => nofun
  | error e =>
    cases r' with
    | ok u' => exact first h nofun
    | error e' => exact h.elim (fun behind => first behind nofun) fun behind => second behind nofun

/-- Whatever the credentials of its account are, or if it has none, what is shown of opening
a new session is the same as far as the attempt comes. -/
theorem connect_redacted (w : World) (k : Nat) (username password : Option String) :
    let w' := w.withCredentials k username password
    let s : Scene := ⟨.bound w k, w⟩
    let s' : Scene := ⟨.bound w' k, w'⟩
    ∃ r r' t t', connect s = ending r t ∧ connect s' = ending r' t' ∧
      Redacted s s' r r' t t' := by
  intro w' s s'
  have parted := veils_attemptOpening s s' (veiled_bound w k username password)
  obtain ⟨r, t, made⟩ := ends_somehow attemptOpening s
  obtain ⟨r', t', made'⟩ := ends_somehow attemptOpening s'
  rw [made, made'] at parted
  exact ⟨r, r', t, t', (connect_bound w k).trans made, (connect_bound w' k).trans made',
    parted.redacted rfl⟩

end Op

end ImapSession
