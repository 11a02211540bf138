import ImapSession.Proofs.Pairing
import ImapSession.Proofs.Steady

/-!
What a session with a link depends on. Commands and logins look at the session's own
part of the scene and at its account. The rest of the scene, and whatever was recorded
before, has no influence on how they end and on what they do. Nor has a login command
that the session has kept, as long as it is the one that the account makes.
-/
namespace ImapSession

/-- What is recorded already may as well be counted to what is around the session. -/
theorem Stand.scene_rebase (x : Stand) (b : Scene) (k : Nat) :
    x.scene b k = { x with acts := [] }.scene
      ⟨b.session, { b.world with log := b.world.log ++ x.acts.map (Event.mk k) }⟩ k := by
  simp [scene]

def Stand.concluded (x : Stand) (r : Except Failure Unit) : Stand :=
  match r with
  | .ok () => { x with wire := { x.wire with framer := .empty }, phase := .ready }
  | .error e => { x with
      wire := { x.wire with framer := .empty }
      phase := .failed
      acts := x.acts ++ e.lateReport?.toList.map Act.report }

/-- If a login command is kept at all, it is the one that the account makes. -/
def Account.Keeps (a : Account) (kept : Option String) : Prop :=
  ∀ q, kept = some q → a.phrase = .ok q

theorem Account.keeps_none (a : Account) : a.Keeps none := fun _ h => nomatch h

/-- The two differ in the login command they have kept, if in anything. -/
def Stand.Twin (a : Account) (x x' : Stand) : Prop :=
  ∃ q, x' = { x with phrase := q } ∧ (q = x.phrase ∨ a.Keeps x.phrase ∧ a.Keeps q)

theorem Stand.twin_refl (a : Account) (x : Stand) : x.Twin a x := ⟨x.phrase, rfl, .inl rfl⟩

namespace Op

variable {α β : Type} {a : Account} {b : Scene} {k : Nat} {x : Stand}

/-- Bound to an account like this, a session that has a link makes of the operation the
same in every scene. -/
def Local (a : Account) (k : Nat) (op : Op α) : Prop :=
  ∀ x : Stand, x.wire.link.owner = k → ∃ r, ∃ y : Stand, y.wire.link.owner = k ∧
    ∀ b, b.world.accounts k = a → op (x.scene b k) = ending r (y.scene b k)

/-- Twins make the same of the operation. -/
def Blind (a : Account) (k : Nat) (op : Op α) : Prop :=
  ∀ x x' : Stand, x.Twin a x' → x.wire.link.owner = k →
    ∃ r, ∃ y y' : Stand, y.Twin a y' ∧ y.wire.link.owner = k ∧
      ∀ b, b.world.accounts k = a →
        op (x.scene b k) = ending r (y.scene b k) ∧ op (x'.scene b k) = ending r (y'.scene b k)

theorem Blind.local {op : Op α} (h : Blind a k op) : Local a k op := by
  intro x owned
  obtain ⟨r, y, y', -, owned', made⟩ := h x x (x.twin_refl a) owned
  exact ⟨r, y, owned', fun b account => (made b account).1⟩

theorem blind_pure (c : α) : Blind a k (pure c) := fun x x' twin owned =>
  ⟨.ok c, x, x', twin, owned, fun _ _ => ⟨rfl, rfl⟩⟩

theorem blind_bind {op : Op α} {f : α → Op β} (h : Blind a k op) (next : ∀ c, Blind a k (f c)) :
    Blind a k (op >>= f) := by
  intro x x' twin owned
  obtain ⟨r, y, y', twin', owned', made⟩ := h x x' twin owned
  cases r with
  | error e =>
    refine ⟨.error e, y, y', twin', owned', fun b account => ?_⟩
    exact ⟨bind_error (made b account).1, bind_error (made b account).2⟩
  | ok c =>
    obtain ⟨r', z, z', twin'', owned'', done⟩ := next c y y' twin' owned'
    refine ⟨r', z, z', twin'', owned'', fun b account => ?_⟩
    rw [bind_ok (made b account).1, bind_ok (made b account).2]
    exact done b account

theorem blind_ite {c : Prop} [Decidable c] {op op' : Op α} (h : Blind a k op)
    (h' : Blind a k op') : Blind a k (if c then op else op') := by
  split
  · exact h
  · exact h'

/-- A step whose outcome the link and the tag decide, and that leaves the login command
as it is. -/
theorem blind_ending {op : Op α} (r : Stand → Except Failure α) (g : Stand → Stand)
    (owner : ∀ x, (g x).wire.link.owner = x.wire.link.owner)
    (apart : ∀ x q, r { x with phrase := q } = r x ∧
      g { x with phrase := q } = { g x with phrase := q })
    (kept : ∀ x, (g x).phrase = x.phrase)
    (made : ∀ x b, x.wire.link.owner = k → b.world.accounts k = a →
      op (x.scene b k) = ending (r x) ((g x).scene b k)) : Blind a k op := by
  rintro x _ ⟨q, rfl, same⟩ owned
  refine ⟨r x, g x, { g x with phrase := q }, ⟨q, rfl, by rw [kept]; exact same⟩,
    (owner x).trans owned, fun b account => ⟨made x b owned account, ?_⟩⟩
  rw [made { x with phrase := q } b owned account, (apart x q).1, (apart x q).2]

theorem blind_step {op : Op α} (c : α) (g : Stand → Stand)
    (owner : ∀ x, (g x).wire.link.owner = x.wire.link.owner)
    (apart : ∀ x q, g { x with phrase := q } = { g x with phrase := q })
    (kept : ∀ x, (g x).phrase = x.phrase)
    (made : ∀ x b, b.world.accounts k = a → op (x.scene b k) = .ok c ((g x).scene b k)) :
    Blind a k op :=
  blind_ending (fun _ => .ok c) g owner (fun x q => ⟨rfl, apart x q⟩) kept
    fun x b _ account => made x b account

theorem blind_setPhase (p : Phase) : Blind a k (setPhase p) :=
  blind_step () (fun x => { x with phase := p }) (fun _ => rfl) (fun _ _ => rfl) (fun _ => rfl)
    fun _ _ _ => rfl

/-- To look at the session is no harm if it is for the capabilities only. -/
theorem blind_session {f : Session → Op β}
    (same : ∀ u v, u.capabilities = v.capabilities → f u = f v)
    (h : ∀ u, Blind a k (f u)) : Blind a k (session >>= f) := by
  rintro x x' twin owned
  let u : Session := ⟨none, none, none, x.capabilities, 0, none, .closed⟩
  obtain ⟨r, y, y', twin', owned', made⟩ := h u x x' twin owned
  obtain ⟨q, rfl, -⟩ := twin
  refine ⟨r, y, y', twin', owned', fun b account => ?_⟩
  have looked : ∀ z : Stand, z.capabilities = x.capabilities →
      (session >>= f) (z.scene b k) = f u (z.scene b k) := by
    intro z offers
    have hs : session (z.scene b k) = .ok (z.scene b k).session (z.scene b k) := rfl
    rw [bind_ok hs, same (z.scene b k).session u offers]
  rw [looked x rfl, looked { x with phrase := q } rfl]
  exact made b account

theorem blind_bound : Blind a k Op.bound :=
  blind_step a id (fun _ => rfl) (fun _ _ => rfl) (fun _ => rfl) fun _ _ account =>
    bound_scene account

theorem blind_run (command : String) (sensitive : Bool) : Blind a k (run command sensitive) :=
  blind_ending
    (fun x => (x.wire.use (.command (x.tag + 1) command sensitive)).answer)
    (fun x => x.drew.heard (x.wire.use (.command (x.tag + 1) command sensitive)))
    (fun x => Wire.owner_use x.wire _) (fun _ _ => ⟨rfl, rfl⟩) (fun _ => rfl)
    fun _ _ owned _ => run_scene owned

theorem blind_secured :
    Blind a k (do secureLink; setSession fun s => { s with framer := some .empty }) :=
  blind_ending (fun x => x.wire.secure.answer.map fun _ => ()) (fun x => x.heard x.wire.secure)
    (fun x => Wire.owner_use x.wire .secure) (fun _ _ => ⟨rfl, rfl⟩) (fun _ => rfl)
    fun _ _ owned _ => secured_scene owned

def Twins (a : Account) (k : Nat) (x x' : Stand) : Prop := x.Twin a x' ∧ x.wire.link.owner = k

theorem Paired.blind {op : Op α} (h : Paired a a k (Twins a k) (Twins a k) (Twins a k) op op) :
    Blind a k op := by
  intro x x' twin owned
  obtain ⟨r, y, y', post, made⟩ := h x x' ⟨twin, owned⟩
  obtain ⟨twin', owned'⟩ := leads_same.1 post
  exact ⟨r, y, y', twin', owned', fun b account => made b b account account⟩

/-- The login command is the same whether it was kept or is built now. -/
theorem twins_loginPhrase :
    Paired a a k (Twins a k) (Twins a k) (Twins a k) loginPhrase loginPhrase := by
  rintro x _ ⟨⟨q, rfl, same⟩, owned⟩
  have built : a.Keeps x.phrase → a.Keeps q → ∃ r, ∃ y y' : Stand,
      Leads (Twins a k) (Twins a k) r y y' ∧ ∀ b b', b.world.accounts k = a → b'.world.accounts k = a →
        loginPhrase (x.scene b k) = ending r (y.scene b k) ∧
        loginPhrase ({ x with phrase := q }.scene b' k) = ending r (y'.scene b' k) := by
    intro kept kept'
    have made := fun (b : Scene) (account : b.world.accounts k = a) =>
      Opening.loginPhrase_scene account kept
    have made' := fun (b : Scene) (account : b.world.accounts k = a) =>
      Opening.loginPhrase_scene (x := { x with phrase := q }) account kept'
    cases hp : a.phrase with
    | ok p =>
      simp only [hp] at made made'
      exact ⟨.ok p, { x with phrase := some p }, _, ⟨Stand.twin_refl a _, owned⟩,
        fun b b' account account' => ⟨made b account, made' b' account'⟩⟩
    | error e =>
      simp only [hp] at made made'
      exact ⟨.error e, x, _, ⟨⟨q, rfl, .inr ⟨kept, kept'⟩⟩, owned⟩,
        fun b b' account account' => ⟨made b account, made' b' account'⟩⟩
  rcases same with rfl | ⟨kept, kept'⟩
  · obtain hq | ⟨p, hq⟩ := Option.eq_none_or_eq_some x.phrase
    · have kept : a.Keeps x.phrase := hq ▸ a.keeps_none
      exact built kept kept
    · have given : ∀ b, loginPhrase (x.scene b k) = .ok p (x.scene b k) := by
        intro b
        have kept : (x.scene b k).session.loginPhrase = some p := hq
        simp only [loginPhrase, kept]
      exact ⟨.ok p, x, x, ⟨x.twin_refl a, owned⟩, fun b b' _ _ => ⟨given b, given b'⟩⟩
  · exact built kept kept'

/-- The steps of a login leave twins what they are. -/
theorem stepwise_twins : Stepwise a a k (Twins a k) where
  accounts := rfl
  owned := by
    rintro x _ ⟨⟨q, rfl, -⟩, owned⟩
    exact ⟨owned, owned⟩
  offers := by
    rintro x _ ⟨⟨q, rfl, -⟩, -⟩ name
    rfl
  phase := by
    rintro x _ p ⟨⟨q, rfl, same⟩, owned⟩
    exact ⟨⟨q, rfl, same⟩, owned⟩
  did := by
    rintro x _ act ⟨⟨q, rfl, same⟩, owned⟩
    exact ⟨⟨q, rfl, same⟩, owned⟩
  drew := by
    rintro x _ ⟨⟨q, rfl, same⟩, owned⟩
    exact ⟨rfl, ⟨q, rfl, same⟩, owned⟩
  line := by
    rintro x _ text shown ⟨⟨q, rfl, same⟩, owned⟩
    exact ⟨rfl, ⟨q, rfl, same⟩, (Wire.owner_use x.wire (.line text shown)).trans owned⟩
  phrase := twins_loginPhrase

theorem blind_authenticate : Blind a k authenticate := stepwise_twins.authenticate.blind

theorem blind_discover : Blind a k discover := by
  apply blind_bind (blind_run _ _)
  intro rs
  apply blind_bind blind_bound
  intro a'
  exact blind_step () (fun x => { x with
      capabilities := .ofResponses rs a'.disabled, phase := .capabilitiesKnown })
    (fun _ => rfl) (fun _ _ => rfl) (fun _ => rfl) fun _ _ _ => rfl

theorem blind_encrypt : Blind a k encrypt := by
  apply blind_session
  · intro u v same
    simp only [same]
  intro u
  apply blind_ite ?_ (blind_pure _)
  apply blind_bind (blind_setPhase _)
  intro _
  apply blind_bind (blind_run _ _)
  intro _
  rw [← bind_assoc]
  exact blind_bind blind_secured fun _ => blind_discover

/-- The query for the capabilities is one command, and if it is answered they are set anew. -/
theorem discover_scene (owned : x.wire.link.owner = k) (account : b.world.accounts k = a) :
    discover (x.scene b k) =
      let h := x.wire.use (.command (x.tag + 1) Capabilities.word false)
      match h.answer with
      | .ok rs => .ok () ({ x.drew.heard h with
          capabilities := .ofResponses rs a.disabled, phase := .capabilitiesKnown }.scene b k)
      | .error e => .error e ((x.drew.heard h).scene b k) := by
  have made : run Capabilities.word false (x.scene b k) = _ := run_scene owned
  dsimp only at made ⊢
  cases hans : (x.wire.use (.command (x.tag + 1) Capabilities.word false)).answer with
  | error e =>
    rw [hans] at made
    rw [discover, bind_error made]
  | ok rs =>
    rw [hans] at made
    rw [discover, bind_ok made, bind_ok (bound_scene account)]
    rfl

@[simp] theorem conclude_scene (r : Except Failure Unit) :
    conclude r (x.scene b k) = ending r ((x.concluded r).scene b k) := by
  have bound : (x.scene b k).session.account = some k := rfl
  rw [conclude_bound bound]
  cases r with
  | ok => simp [Stand.concluded, Stand.scene, lastPhase, lateActs]
  | error e => simp [Stand.concluded, Stand.scene, lastPhase, lateActs]

end Op

end ImapSession
