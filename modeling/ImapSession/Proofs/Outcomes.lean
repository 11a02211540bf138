import ImapSession.Session.Opening

/-!
How an operation ends. An operation that fails keeps what it did, so a statement
about it says two things: what holds of the value and the scene when it ends
well, and what holds of the failure and the scene when it does not. The rules
here follow the way operations are put together.
-/
namespace ImapSession.Op

variable {α β : Type}

/-- How the operation ends from a scene. -/
def Ends (op : Op α) (s : Scene) (good : α → Scene → Prop) (bad : Failure → Scene → Prop) : Prop :=
  match op s with
  | .ok a t => good a t
  | .error e t => bad e t

theorem ends_bind {op : Op α} {f : α → Op β} {s : Scene} {good : β → Scene → Prop}
    {bad : Failure → Scene → Prop} :
    Ends (op >>= f) s good bad ↔ Ends op s (fun a t => Ends (f a) t good bad) bad := by
  simp only [Ends, bind, EStateM.bind]
  cases op s <;> rfl

/-- An outcome that is taken over ends an operation in the same way. -/
theorem ends_settle {r : Except Failure α} {s : Scene} {good : α → Scene → Prop}
    {bad : Failure → Scene → Prop} :
    Ends (settle r) s good bad ↔
      (∀ a, r = .ok a → good a s) ∧ (∀ e, r = .error e → bad e s) := by
  cases r with
  | ok a => simp [settle, Ends]
  | error e => simp [settle, Ends]

/-- An attempt always ends well, and gives how the operation ended. -/
theorem ends_attempt {op : Op α} {s : Scene} {good : Except Failure α → Scene → Prop}
    {bad : Failure → Scene → Prop} :
    Ends (attempt op) s good bad ↔
      Ends op s (fun a t => good (.ok a) t) (fun e t => good (.error e) t) := by
  simp only [Ends, attempt]
  cases op s <;> rfl

theorem bind_ok {op : Op α} {f : α → Op β} {s t : Scene} {a : α} (h : op s = .ok a t) :
    (op >>= f) s = f a t := by
  simp only [bind, EStateM.bind, h]

theorem bind_error {op : Op α} {f : α → Op β} {s t : Scene} {e : Failure}
    (h : op s = .error e t) : (op >>= f) s = .error e t := by
  simp only [bind, EStateM.bind, h]

theorem ends_bind_ok {op : Op α} {f : α → Op β} {s t : Scene} {a : α} {good : β → Scene → Prop}
    {bad : Failure → Scene → Prop} (h : op s = .ok a t) :
    Ends (op >>= f) s good bad ↔ Ends (f a) t good bad := by
  rw [ends_bind, Ends, h]

theorem ends_bind_error {op : Op α} {f : α → Op β} {s t : Scene} {e : Failure}
    {good : β → Scene → Prop} {bad : Failure → Scene → Prop} (h : op s = .error e t) :
    Ends (op >>= f) s good bad ↔ bad e t := by
  rw [ends_bind, Ends, h]

/-- A part that the session has is given as it is. -/
theorem demand_some {part : Session → Option α} {e : Failure} {s : Scene} {a : α}
    (h : part s.session = some a) : demand part e s = .ok a s := by
  simp only [demand, h]

/-- Where the session does not have the part, nothing is done. -/
theorem demand_none {part : Session → Option α} {e : Failure} {s : Scene}
    (h : part s.session = none) : demand part e s = .error e s := by
  simp only [demand, h]

def ending (r : Except Failure α) (t : Scene) : EStateM.Result Failure Scene α :=
  match r with
  | .ok a => .ok a t
  | .error e => .error e t

/-- An attempt gives the outcome of an ending and keeps its scene. -/
theorem attempt_ending {op : Op α} {s t : Scene} {r : Except Failure α} (h : op s = ending r t) :
    attempt op s = .ok r t := by
  rw [attempt, h]
  cases r with
  | ok a => rfl
  | error e => rfl

theorem Ends.imp {op : Op α} {s : Scene} {good good' : α → Scene → Prop}
    {bad bad' : Failure → Scene → Prop} (h : Ends op s good bad)
    (hg : ∀ a t, good a t → good' a t) (hb : ∀ e t, bad e t → bad' e t) :
    Ends op s good' bad' := by
  unfold Ends at *
  cases hr : op s with
  | ok a t => simp only [hr] at h ⊢; exact hg a t h
  | error e t => simp only [hr] at h ⊢; exact hb e t h

theorem Ends.imp_ok {op : Op α} {s : Scene} {good good' : α → Scene → Prop}
    {bad : Failure → Scene → Prop} (h : Ends op s good bad)
    (hg : ∀ a t, good a t → good' a t) : Ends op s good' bad := h.imp hg fun _ _ hb => hb

theorem Ends.imp_error {op : Op α} {s : Scene} {good : α → Scene → Prop}
    {bad bad' : Failure → Scene → Prop} (h : Ends op s good bad)
    (hb : ∀ e t, bad e t → bad' e t) : Ends op s good bad' := h.imp (fun _ _ hg => hg) hb

/-- What two statements say of an ending holds of it together. -/
theorem Ends.and {op : Op α} {s : Scene} {good good' : α → Scene → Prop}
    {bad bad' : Failure → Scene → Prop} (h : Ends op s good bad) (h' : Ends op s good' bad') :
    Ends op s (fun a t => good a t ∧ good' a t) (fun e t => bad e t ∧ bad' e t) := by
  unfold Ends at *
  cases hr : op s with
  | ok a t => simp only [hr] at h h' ⊢; exact ⟨h, h'⟩
  | error e t => simp only [hr] at h h' ⊢; exact ⟨h, h'⟩

/-- An operation is followed by another, and each of them ends as it may. -/
theorem Ends.bind {op : Op α} {f : α → Op β} {s : Scene} {mid : α → Scene → Prop}
    {good : β → Scene → Prop} {bad : Failure → Scene → Prop} (h : Ends op s mid bad)
    (next : ∀ a t, mid a t → Ends (f a) t good bad) : Ends (op >>= f) s good bad :=
  ends_bind.2 (h.imp_ok next)

/-- What was proved of every ending holds of the one there is. -/
theorem Ends.of_ok {op : Op α} {s t : Scene} {a : α} {good : α → Scene → Prop}
    {bad : Failure → Scene → Prop} (h : Ends op s good bad) (hr : op s = .ok a t) : good a t := by
  simpa only [Ends, hr] using h

theorem Ends.of_error {op : Op α} {s t : Scene} {e : Failure} {good : α → Scene → Prop}
    {bad : Failure → Scene → Prop} (h : Ends op s good bad) (hr : op s = .error e t) :
    bad e t := by
  simpa only [Ends, hr] using h

/-- How an operation ends can be found out by running it. -/
instance {op : Op α} {s : Scene} {good : α → Scene → Prop} {bad : Failure → Scene → Prop}
    [∀ a t, Decidable (good a t)] [∀ e t, Decidable (bad e t)] : Decidable (Ends op s good bad) :=
  match hr : op s with
  | .ok a t => decidable_of_iff (good a t) (by rw [Ends, hr])
  | .error e t => decidable_of_iff (bad e t) (by rw [Ends, hr])

/-- An operation that does not end badly ends well. -/
theorem Ends.succeeds {op : Op α} {s : Scene} {good : α → Scene → Prop}
    (h : Ends op s good fun _ _ => False) : ∃ a t, op s = .ok a t ∧ good a t := by
  unfold Ends at h
  cases hr : op s with
  | ok a t => exact ⟨a, t, rfl, by simpa only [hr] using h⟩
  | error e t => simp only [hr] at h

theorem Ends.fails {op : Op α} {s : Scene} {bad : Failure → Scene → Prop}
    (h : Ends op s (fun _ _ => False) bad) : ∃ e t, op s = .error e t ∧ bad e t := by
  unfold Ends at h
  cases hr : op s with
  | ok a t => simp only [hr] at h
  | error e t => exact ⟨e, t, rfl, by simpa only [hr] using h⟩

def succeeded (r : EStateM.Result Failure Scene α) : Bool :=
  match r with
  | .ok _ _ => true
  | .error _ _ => false

/-- An operation keeps what holds of a scene, however it ends. -/
def Keeps (I : Scene → Prop) (op : Op α) : Prop := ∀ s, I s → Ends op s (fun _ => I) (fun _ => I)

variable {I : Scene → Prop}

theorem keeps_pure (a : α) : Keeps I (pure a) := fun _ h => h

theorem keeps_throw (e : Failure) : Keeps I (throw e : Op α) := fun _ h => h

theorem keeps_session : Keeps I session := fun _ h => h

theorem keeps_world : Keeps I world := fun _ h => h

theorem keeps_demand (part : Session → Option α) (e : Failure) : Keeps I (demand part e) := by
  intro s h
  unfold Ends demand
  cases part s.session <;> exact h

theorem keeps_settle (r : Except Failure α) : Keeps I (settle r) := fun _ h =>
  ends_settle.2 ⟨fun _ _ => h, fun _ _ => h⟩

theorem keeps_bind {op : Op α} {f : α → Op β} (h : Keeps I op) (next : ∀ a, Keeps I (f a)) :
    Keeps I (op >>= f) := fun s hs => (h s hs).bind fun a t ht => next a t ht

theorem keeps_attempt {op : Op α} (h : Keeps I op) : Keeps I (attempt op) := fun s hs =>
  ends_attempt.2 (h s hs)

theorem keeps_ite {c : Prop} [Decidable c] {op op' : Op α} (h : Keeps I op) (h' : Keeps I op') :
    Keeps I (if c then op else op') := by
  split
  · exact h
  · exact h'

end ImapSession.Op
