import ImapSession.Proofs.Outcomes
import ImapSession.Proofs.Wire

/-!
The part of a scene that a session works on while it has a link. The rest of the
scene, and what was recorded before, is a base that no step looks at. Each step
on a link does to the base nothing but add to its record.
-/
namespace ImapSession

structure Stand where
  wire : Wire
  capabilities : Capabilities
  phrase : Option String
  phase : Phase
  tag : UInt64
  acts : List Act

namespace Stand

/-- The scene that has this part. The counter, the other counters, the accounts
and the earlier record are those of the base. -/
def scene (b : Scene) (k : Nat) (x : Stand) : Scene where
  session := {
    account := some k
    link := some x.wire.link
    framer := some x.wire.framer
    capabilities := x.capabilities
    counter := b.session.counter
    loginPhrase := x.phrase
    phase := x.phase }
  world := { b.world with
    tags := put b.world.tags b.session.counter x.tag
    log := b.world.log ++ x.acts.map (Event.mk k) }

def did (x : Stand) (a : Act) : Stand := { x with acts := x.acts ++ [a] }

def heard (x : Stand) (h : Heard) : Stand := { x with wire := h.wire, acts := x.acts ++ h.acts }

@[simp] theorem heard_silent (x : Stand) (r : Except Failure (List Response)) (w : Wire) :
    x.heard ⟨[], r, w⟩ = { x with wire := w } := by simp [heard]

def drew (x : Stand) : Stand := { x with tag := x.tag + 1 }

end Stand

theorem put_put {α : Type} (f : Nat → α) (i : Nat) (a b : α) : put (put f i a) i b = put f i b := by
  funext j
  by_cases h : j = i
  · subst h
    simp
  · simp [h]

namespace Op

variable {α : Type} {b : Scene} {k : Nat} {x : Stand}

@[simp] theorem record_scene (a : Act) :
    record k a (x.scene b k) = .ok () ((x.did a).scene b k) := by
  simp only [record, setWorld, World.record, Stand.scene, Stand.did, List.map_append,
    List.append_assoc, List.map_cons, List.map_nil]

@[simp] theorem report_scene (h : Health) :
    report h (x.scene b k) = .ok () ((x.did (.report h)).scene b k) := record_scene _

/-- The account that is bound is that of the base. -/
theorem bound_scene {a : Account} (account : b.world.accounts k = a) :
    bound (x.scene b k) = .ok a (x.scene b k) := by
  rw [← account]
  rfl

theorem discard_scene : discard (x.scene b k) =
    .ok () ({ x with wire := { x.wire with framer := .empty } }.scene b k) := rfl

theorem reading_scene (f : Framer → Stream → Except Failure α × Framer × Stream) :
    reading f (x.scene b k) =
      ending (x.wire.reading f).1 ({ x with wire := (x.wire.reading f).2 }.scene b k) := by
  cases hopen : x.wire.link.isOpen with
  | false =>
    simp only [reading, bind, EStateM.bind, framer, link, demand, Stand.scene, Wire.reading, hopen]
    rfl
  | true =>
    simp only [reading, bind, EStateM.bind, framer, link, demand, Stand.scene, Wire.reading, hopen]
    obtain ⟨result, g, t⟩ := f x.wire.framer x.wire.link.stream
    cases result <;> rfl

theorem read_scene : read (x.scene b k) =
    ending (x.wire.reading Framer.next).1
      ({ x with wire := (x.wire.reading Framer.next).2 }.scene b k) := reading_scene Framer.next

/-- An answer is read as it comes over the wire, and a refusal is reported. -/
theorem collect_scene :
    collect (x.scene b k) =
      ending x.wire.collect.answer ((x.heard x.wire.collect).scene b k) := by
  rcases hw : x.wire.reading Framer.batch with ⟨result, w⟩
  have hr : reading Framer.batch (x.scene b k) = ending result ({ x with wire := w }.scene b k) := by
    rw [reading_scene, hw]
  cases result with
  | error e =>
    rw [collect, bind_error hr, Wire.collect, hw]
    simp [ending]
  | ok answer =>
    obtain ⟨before, last⟩ := answer
    rw [collect, bind_ok hr, Wire.collect, hw]
    dsimp only
    by_cases hlast : (last.isContinuation || last.isOk) = true
    · rw [if_pos hlast, if_pos hlast]
      simp [ending, pure, EStateM.pure]
    · rw [if_neg hlast, if_neg hlast]
      rw [bind_ok discard_scene, bind_ok (report_scene _)]
      rw [refusal]
      split <;> rfl

theorem write_scene (line shown : String) (owned : x.wire.link.owner = k) :
    write line shown (x.scene b k) =
      match x.wire.link.write line with
      | (.ok (), l) =>
        .ok () (({ x with wire := { x.wire with link := l } }.did (.write line shown)).scene b k)
      | (.error f, l) =>
        .error (.link f) ({ x with wire := { x.wire with link := l } }.scene b k) := by
  have kept := x.wire.link.owner_write line
  rcases hw : x.wire.link.write line with ⟨result, l⟩
  rw [hw] at kept
  have hl : link (x.scene b k) = .ok x.wire.link (x.scene b k) := rfl
  rw [write, bind_ok hl, hw]
  cases result with
  | error f => rfl
  | ok =>
    have hs : (setSession fun s => { s with link := some l }) (x.scene b k) =
        .ok () ({ x with wire := { x.wire with link := l } }.scene b k) := rfl
    have hk : l.owner = k := kept.trans owned
    dsimp only
    rw [bind_ok hs, hk]
    exact record_scene _

/-- A line is written and answered as the wire has it. -/
theorem answered_scene (line shown : String) (owned : x.wire.link.owner = k) :
    (write line shown >>= fun _ => collect) (x.scene b k) =
      ending (x.wire.line line shown).answer ((x.heard (x.wire.line line shown)).scene b k) := by
  have written := write_scene (b := b) (x := x) line shown owned
  rcases hw : x.wire.link.write line with ⟨result, l⟩
  rw [hw] at written
  rw [Wire.line, hw]
  cases result with
  | error f =>
    rw [bind_error written]
    simp [ending]
  | ok =>
    rw [bind_ok written, collect_scene]
    simp [Stand.heard, Stand.did]

theorem resume_scene {payload : String} {sensitive : Bool} (owned : x.wire.link.owner = k) :
    resume payload sensitive (x.scene b k) =
      let h := x.wire.line payload (if sensitive then redacted else payload)
      ending h.answer ((x.heard h).scene b k) := answered_scene _ _ owned

/-- A tag is drawn and a command goes out behind it. -/
theorem run_scene {command : String} {sensitive : Bool} (owned : x.wire.link.owner = k) :
    run command sensitive (x.scene b k) =
      let h := x.wire.use (.command (x.tag + 1) command sensitive)
      ending h.answer ((x.drew.heard h).scene b k) := by
  have drawn : ((x.scene b k).world.tags.draw b.session.counter) =
      (x.tag + 1, (x.drew.scene b k).world.tags) := by
    simp [Tags.draw, Stand.scene, Stand.drew, put_put]
  have sent : run command sensitive (x.scene b k) =
      (write (tagged (x.tag + 1) command)
        (if sensitive then tagged (x.tag + 1) redacted else tagged (x.tag + 1) command) >>=
          fun _ => collect) (x.drew.scene b k) := by
    have hs : session (x.scene b k) = .ok (x.scene b k).session (x.scene b k) := rfl
    have hw : world (x.scene b k) = .ok (x.scene b k).world (x.scene b k) := rfl
    have ht : (setWorld fun w => { w with tags := (x.drew.scene b k).world.tags }) (x.scene b k) =
        .ok () (x.drew.scene b k) := rfl
    have hd : (x.scene b k).session.counter = b.session.counter := rfl
    simp only [run, sendTagged, bind_assoc, pure_bind]
    rw [bind_ok hs, bind_ok hw, hd, drawn, bind_ok ht]
    rfl
  rw [sent]
  exact answered_scene (x := x.drew) _ _ owned

/-- The link is encrypted, and the framer starts afresh if it went well. -/
theorem secured_scene (owned : x.wire.link.owner = k) :
    (do secureLink; setSession fun s => { s with framer := some .empty }) (x.scene b k) =
      ending (x.wire.secure.answer.map fun _ => ()) ((x.heard x.wire.secure).scene b k) := by
  have hl : link (x.scene b k) = .ok x.wire.link (x.scene b k) := rfl
  rcases hw : x.wire.link.secure with ⟨result, l⟩
  rw [Wire.secure, hw, secureLink, bind_assoc, bind_ok hl, hw]
  cases hopen : x.wire.link.isOpen with
  | true =>
    simp only [if_true, bind_assoc]
    rw [owned, bind_ok (record_scene .secure)]
    cases hu : upgraded result <;> rfl
  | false =>
    simp only [Bool.false_eq_true, if_false, bind_assoc]
    cases hu : upgraded result <;> simp only [Stand.heard_silent] <;> rfl

end Op

end ImapSession
