import ImapSession.Proofs.Attempt
import ImapSession.Proofs.Stand

/-!
Two sessions that have a link each and do the same. What is said of the pair is that it
stands in some relation before, and in another one after, and that both end with the same
outcome; the scenes around them are any two that have the right accounts. The rules follow
the way operations are put together. A relation that every step of a login keeps is kept
by the login, whichever of the two kinds it is.
-/
namespace ImapSession.Op

variable {α β : Type} {a a' : Account} {k : Nat} {P Q R T E : Stand → Stand → Prop}

/-- The pair stands in one relation if all went well, and in another one if not. -/
def Leads (Q E : Stand → Stand → Prop) (r : Except Failure α) (y y' : Stand) : Prop :=
  match r with
  | .ok _ => Q y y'
  | .error _ => E y y'

theorem leads_same {r : Except Failure α} {y y' : Stand} : Leads R R r y y' ↔ R y y' := by
  cases r <;> rfl

/-- Starting from a pair like this, both end with the same outcome and in a pair like that. -/
def Paired (a a' : Account) (k : Nat) (P Q E : Stand → Stand → Prop) (op op' : Op α) : Prop :=
  ∀ x x', P x x' → ∃ r, ∃ y y' : Stand, Leads Q E r y y' ∧
    ∀ b b', b.world.accounts k = a → b'.world.accounts k = a' →
      op (x.scene b k) = ending r (y.scene b k) ∧ op' (x'.scene b' k) = ending r (y'.scene b' k)

/-- What is asked may be less, and what is promised more. -/
theorem Paired.imp {P' Q' E' : Stand → Stand → Prop} {op op' : Op α} (h : Paired a a' k P Q E op op')
    (pre : ∀ x x', P' x x' → P x x') (good : ∀ x x', Q x x' → Q' x x')
    (bad : ∀ x x', E x x' → E' x x') : Paired a a' k P' Q' E' op op' := by
  intro x x' hx
  obtain ⟨r, y, y', post, made⟩ := h x x' (pre x x' hx)
  refine ⟨r, y, y', ?_, made⟩
  cases r with
  | ok => exact good y y' post
  | error => exact bad y y' post

theorem paired_pure (c : α) : Paired a a' k R R E (pure c) (pure c) := fun x x' h =>
  ⟨.ok c, x, x', h, fun _ _ _ _ => ⟨rfl, rfl⟩⟩

theorem paired_throw (e : Failure) : Paired a a' k E Q E (throw e : Op α) (throw e) :=
  fun x x' h => ⟨.error e, x, x', h, fun _ _ _ _ => ⟨rfl, rfl⟩⟩

theorem paired_settle (r : Except Failure α) : Paired a a' k R R R (settle r) (settle r) := by
  intro x x' h
  refine ⟨r, x, x', leads_same.2 h, fun _ _ _ _ => ?_⟩
  cases r <;> exact ⟨rfl, rfl⟩

theorem paired_bind {op op' : Op α} {f f' : α → Op β} (h : Paired a a' k P Q E op op')
    (next : ∀ c, Paired a a' k Q T E (f c) (f' c)) :
    Paired a a' k P T E (op >>= f) (op' >>= f') := by
  intro x x' pre
  obtain ⟨r, y, y', mid, made⟩ := h x x' pre
  cases r with
  | error e =>
    refine ⟨.error e, y, y', mid, fun b b' account account' => ?_⟩
    obtain ⟨here, there⟩ := made b b' account account'
    exact ⟨bind_error here, bind_error there⟩
  | ok c =>
    obtain ⟨r', z, z', post, done⟩ := next c y y' mid
    refine ⟨r', z, z', post, fun b b' account account' => ?_⟩
    obtain ⟨here, there⟩ := made b b' account account'
    rw [bind_ok here, bind_ok there]
    exact done b b' account account'

theorem paired_attempt {op op' : Op α} (h : Paired a a' k P R R op op') :
    Paired a a' k P R R (attempt op) (attempt op') := by
  intro x x' pre
  obtain ⟨r, y, y', post, made⟩ := h x x' pre
  refine ⟨.ok r, y, y', leads_same.1 post, fun b b' account account' => ?_⟩
  obtain ⟨here, there⟩ := made b b' account account'
  exact ⟨attempt_ending here, attempt_ending there⟩

theorem paired_ite {c : Prop} [Decidable c] {op op' op₁ op₁' : Op α} (h : Paired a a' k P Q E op op')
    (h₁ : Paired a a' k P Q E op₁ op₁') :
    Paired a a' k P Q E (if c then op else op₁) (if c then op' else op₁') := by
  split
  · exact h
  · exact h₁

theorem paired_account {f f' : Nat → Op β} (h : Paired a a' k P Q E (f k) (f' k)) :
    Paired a a' k P Q E (account >>= f) (account >>= f') := h

theorem paired_bound {f f' : Account → Op β} (h : Paired a a' k P Q E (f a) (f' a')) :
    Paired a a' k P Q E (bound >>= f) (bound >>= f') := by
  intro x x' pre
  obtain ⟨r, y, y', post, made⟩ := h x x' pre
  refine ⟨r, y, y', post, fun b b' account account' => ?_⟩
  rw [bind_ok (bound_scene account), bind_ok (bound_scene account')]
  exact made b b' account account'

/-- To look at the session is no harm if it is for the capabilities only. -/
theorem paired_session {f : Session → Op β}
    (same : ∀ u v, u.capabilities = v.capabilities → f u = f v)
    (h : ∀ u u', (∃ x x', P x x' ∧ u.capabilities = x.capabilities ∧
        u'.capabilities = x'.capabilities) →
      Paired a a' k P Q E (f u) (f u')) :
    Paired a a' k P Q E (session >>= f) (session >>= f) := by
  intro x x' pre
  let seen (x : Stand) : Session := ⟨none, none, none, x.capabilities, 0, none, .closed⟩
  obtain ⟨r, y, y', post, made⟩ := h (seen x) (seen x') ⟨x, x', pre, rfl, rfl⟩ x x' pre
  refine ⟨r, y, y', post, fun b b' account account' => ?_⟩
  have looked : ∀ (z : Stand) (b : Scene),
      (session >>= f) (z.scene b k) = f (seen z) (z.scene b k) := by
    intro z b
    have hs : session (z.scene b k) = .ok (z.scene b k).session (z.scene b k) := rfl
    rw [bind_ok hs, same (z.scene b k).session (seen z) rfl]
  rw [looked, looked]
  exact made b b' account account'

/-- A relation that the steps of a login keep. -/
structure Stepwise (a a' : Account) (k : Nat) (R : Stand → Stand → Prop) : Prop where
  accounts : a' = { a with disabled := a'.disabled }
  owned : ∀ {x x'}, R x x' → x.wire.link.owner = k ∧ x'.wire.link.owner = k
  offers : ∀ {x x'}, R x x' → ∀ name, x'.capabilities.has name = x.capabilities.has name
  phase : ∀ {x x'} (p : Phase), R x x' → R { x with phase := p } { x' with phase := p }
  did : ∀ {x x'} (act : Act), R x x' → R (x.did act) (x'.did act)
  drew : ∀ {x x'}, R x x' → x'.tag = x.tag ∧ R x.drew x'.drew
  line : ∀ {x x'} (text shown : String), R x x' →
    (x'.wire.line text shown).answer = (x.wire.line text shown).answer ∧
      R (x.heard (x.wire.line text shown)) (x'.heard (x'.wire.line text shown))
  phrase : Paired a a' k R R R loginPhrase loginPhrase

namespace Stepwise

theorem setPhase (s : Stepwise a a' k R) (p : Phase) :
    Paired a a' k R R E (Op.setPhase p) (Op.setPhase p) := fun _ _ h =>
  ⟨.ok (), _, _, s.phase p h, fun _ _ _ _ => ⟨rfl, rfl⟩⟩

theorem report (s : Stepwise a a' k R) (health : Health) :
    Paired a a' k R R E (Op.report health) (Op.report health) := fun _ _ h =>
  ⟨.ok (), _, _, s.did (.report health) h, fun _ _ _ _ => ⟨report_scene _, report_scene _⟩⟩

theorem record (s : Stepwise a a' k R) (act : Act) :
    Paired a a' k R R E (Op.record k act) (Op.record k act) := fun _ _ h =>
  ⟨.ok (), _, _, s.did act h, fun _ _ _ _ => ⟨record_scene _, record_scene _⟩⟩

theorem run (s : Stepwise a a' k R) (command : String) (sensitive : Bool) :
    Paired a a' k R R R (Op.run command sensitive) (Op.run command sensitive) := by
  intro x x' h
  obtain ⟨owned, owned'⟩ := s.owned h
  obtain ⟨tag, drawn⟩ := s.drew h
  obtain ⟨answer, heard⟩ := s.line (tagged (x.tag + 1) command)
    (if sensitive then tagged (x.tag + 1) redacted else tagged (x.tag + 1) command) drawn
  refine ⟨_, _, _, leads_same.2 heard, fun b b' _ _ => ⟨run_scene owned, ?_⟩⟩
  rw [run_scene owned', tag]
  exact congrArg (ending · _) answer

theorem resume (s : Stepwise a a' k R) (payload : String) (sensitive : Bool) :
    Paired a a' k R R R (Op.resume payload sensitive) (Op.resume payload sensitive) := by
  intro x x' h
  obtain ⟨owned, owned'⟩ := s.owned h
  obtain ⟨answer, heard⟩ := s.line payload (if sensitive then redacted else payload) h
  refine ⟨_, _, _, leads_same.2 heard, fun b b' _ _ => ⟨resume_scene owned, ?_⟩⟩
  rw [resume_scene owned']
  exact congrArg (ending · _) answer

theorem plainLogin (s : Stepwise a a' k R) :
    Paired a a' k R R R Op.plainLogin Op.plainLogin := by
  apply paired_bind s.phrase
  intro command
  exact paired_bind (s.run _ _) fun _ => paired_pure _

theorem digestLogin (s : Stepwise a a' k R) :
    Paired a a' k R R R Op.digestLogin Op.digestLogin := by
  have credentials : a'.credentials = a.credentials := by
    rw [s.accounts]
    rfl
  have exchange : challenged a' = challenged a := by
    rw [s.accounts]
    rfl
  apply paired_bound
  rw [credentials, exchange]
  apply paired_bind (paired_settle _)
  rintro ⟨username, password⟩
  apply paired_account
  apply paired_bind (s.record .nonce)
  intro _
  apply paired_bind (s.run _ _)
  intro rs
  apply paired_bind (paired_settle _)
  intro x
  apply paired_bind (s.resume _ _)
  intro rs
  apply paired_bind (paired_settle _)
  intro _
  exact paired_bind (s.resume _ _) fun rs => paired_ite (paired_pure _) (paired_throw _)

theorem authenticate (s : Stepwise a a' k R) :
    Paired a a' k R R R Op.authenticate Op.authenticate := by
  apply paired_session
  · intro u v same
    simp only [same]
  rintro u u' ⟨x, x', h, hu, hu'⟩
  simp only [hu, hu', s.offers h]
  apply paired_bind (paired_attempt (paired_ite s.digestLogin s.plainLogin))
  intro r
  cases r with
  | ok => exact paired_pure _
  | error e =>
    cases e with
    | refused r =>
      apply paired_ite ?_ (paired_throw _)
      exact paired_bind (s.report _) fun _ => paired_throw _
    | noCredentials => exact paired_bind (s.report _) fun _ => paired_throw _
    | _ => exact paired_throw _

end Stepwise

end ImapSession.Op
