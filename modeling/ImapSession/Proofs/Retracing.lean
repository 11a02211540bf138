import ImapSession.Proofs.Connecting

/-!
The run of an opening, traced again. A link answers each use in one way only, and the answers
decide what is used next, so two runs on the same link that cannot go on are the same. What is
known of a run therefore is known of the attempt: where it breaks off, and how that is passed on.
-/
namespace ImapSession.Opening

open Op

variable {a : Account} {t : UInt64} {w v : Wire} {s : Scene} {k : Nat} {turns : List Turn}
  {σ : Stage}

/-- The turns from one stage to another, on a link as it is at the first. -/
inductive Path (a : Account) (t : UInt64) : Stage → Wire → List Turn → Stage → Wire → Prop
  | none {σ : Stage} {v : Wire} : Path a t σ v [] σ v
  | turn {σ σ' σ'' : Stage} {v v'' : Wire} {u : Use} {turns : List Turn} (next : due a t σ = .use u)
      (judged : judge a σ (v.turn u) = .ok σ') (rest : Path a t σ' (v.use u).wire turns σ'' v'') :
      Path a t σ v (v.turn u :: turns) σ'' v''

/-- There is no going on from here: nothing is due, or what is due will not do. -/
def Halts (a : Account) (t : UInt64) (σ : Stage) (v : Wire) : Prop :=
  ∀ u, due a t σ = .use u → ∃ e, judge a σ (v.turn u) = .error e

theorem halts_of_error {u : Use} {e : Failure} (next : due a t σ = .use u)
    (judged : judge a σ (v.turn u) = .error e) : Halts a t σ v := by
  intro u' next'
  obtain rfl := Next.use.inj (next.symm.trans next')
  exact ⟨e, judged⟩

/-- A path goes on by one turn. -/
theorem Path.concat {σ₀ σ' : Stage} {v₀ : Wire} {u : Use} (h : Path a t σ₀ v₀ turns σ v)
    (next : due a t σ = .use u) (judged : judge a σ (v.turn u) = .ok σ') :
    Path a t σ₀ v₀ (turns ++ [v.turn u]) σ' (v.use u).wire := by
  induction h with
  | none => exact .turn next judged .none
  | turn next' judged' _ ih => exact .turn next' judged' (ih next judged)

theorem plays_nil (plays : w.Plays [] v) : v = w := by
  generalize all : [] = made at plays
  cases plays with
  | none => rfl
  | turn => simp at all

/-- A conversation ends with its last turn. -/
theorem plays_concat {turn : Turn} (plays : w.Plays (turns ++ [turn]) v) :
    ∃ v₀, w.Plays turns v₀ ∧ turn = v₀.turn turn.use ∧ v = (v₀.use turn.use).wire := by
  generalize all : turns ++ [turn] = made at plays
  cases plays with
  | none => simp at all
  | @turn turns' v₀ before u =>
    obtain ⟨rfl, same⟩ := List.append_inj' all rfl
    obtain rfl : turn = v₀.turn u := List.singleton_inj.1 same
    exact ⟨v₀, before, rfl, rfl⟩

/-- A run on a link is a path from its beginning. -/
theorem path_of_follows (follows : Follows a t turns σ) (plays : w.Plays turns v) :
    Path a t .dialled w turns σ v := by
  induction follows generalizing v with
  | start =>
    rw [plays_nil plays]
    exact .none
  | turn before turn next judged ih =>
    obtain ⟨v₀, plays₀, made, rfl⟩ := plays_concat plays
    rw [made] at judged
    rw [made]
    exact (ih plays₀).concat next judged

/-- Two paths from one place that cannot go on are the same. -/
theorem Path.unique {σ₁ σ₂ : Stage} {v₁ v₂ : Wire} {turns' : List Turn}
    (h : Path a t σ v turns σ₁ v₁) (halts : Halts a t σ₁ v₁)
    (h' : Path a t σ v turns' σ₂ v₂) (halts' : Halts a t σ₂ v₂) : σ₁ = σ₂ ∧ v₁ = v₂ := by
  induction h generalizing turns' with
  | none =>
    cases h' with
    | none => exact ⟨rfl, rfl⟩
    | turn next judged rest =>
      obtain ⟨e, judged'⟩ := halts _ next
      rw [judged] at judged'
      cases judged'
  | turn next judged rest ih =>
    cases h' with
    | none =>
      obtain ⟨e, judged'⟩ := halts' _ next
      rw [judged] at judged'
      cases judged'
    | turn next' judged' rest' =>
      obtain rfl := Next.use.inj (next.symm.trans next')
      obtain rfl := Except.ok.inj (judged.symm.trans judged')
      exact ih halts rest'

/-- Where an attempt ended that has this outcome: its run is complete, or it broke off, and what
it broke off with was passed on. -/
inductive Ended (a : Account) (t : UInt64) (w : Wire) : Except Failure Unit → Prop
  | opened {turns : List Turn} {c : Capabilities} {v : Wire} (follows : Follows a t turns (.opened c))
      (plays : w.Plays turns v) : Ended a t w (.ok ())
  | broken {turns : List Turn} {σ : Stage} {e : Failure} {v : Wire} (breaks : Breaks a t turns σ e)
      (plays : w.Plays turns v) : Ended a t w (.error (verdict σ.logsIn e))

theorem attemptOpening_ended (bound : s.session.account = some k) (kept : PhraseKept s)
    (up : (s.world.dial k).1.openFault = none) :
    Ends attemptOpening s
      (fun _ _ => Ended (s.world.accounts k) (lastTag s) (newWire s k) (.ok ()))
      (fun e s' => s'.session.phase = .failed ∧
        Ended (s.world.accounts k) (lastTag s) (newWire s k) (.error e)) := by
  rw [attemptOpening_eq]
  refine ends_bind.2 (ends_attempt.2 ((establish_linked bound kept up).imp ?_ ?_))
  · rintro - s' ⟨x, rfl, c, along⟩
    obtain ⟨turns, follows, track⟩ := along.run
    exact .opened follows track.plays
  · rintro - s' ⟨x, rfl, inLogin, e, ⟨turns, σ, breaks, track, -, rfl⟩, rfl⟩
    rw [Ends, conclude_error]
    exact ⟨rfl, .broken breaks track.plays⟩

/-- An attempt that has still to take down an old link ends in the same way. -/
theorem connect_ended (bound : s.session.account = some k) (idle : isReady s.session = false)
    (kept : PhraseKept s) (up : (s.world.dial k).1.openFault = none) :
    Ends connect s
      (fun _ _ => Ended (s.world.accounts k) (lastTag s) (newWire s k) (.ok ()))
      (fun e s' => s'.session.phase = .failed ∧
        Ended (s.world.accounts k) (lastTag s) (newWire s k) (.error e)) := by
  have attempt := attemptOpening_ended (s := cleared s) (k := k) (by simpa using bound) kept.cleared
    (by rw [dial_cleared]; exact up)
  rw [lastTag_cleared, newWire_cleared] at attempt
  rw [Ends, connect_eq bound idle]
  exact attempt

/-- A run that broke off at a turn ended nowhere else. -/
theorem Ended.at_turn {r : Except Failure Unit} {u : Use} {e : Failure} (h : Ended a t w r)
    (follows : Follows a t turns σ) (plays : w.Plays turns v) (next : due a t σ = .use u)
    (judged : judge a σ (v.turn u) = .error e) : r = .error (verdict σ.logsIn e) := by
  have path := path_of_follows follows plays
  have halts := halts_of_error next judged
  cases h with
  | opened follows' plays' =>
    obtain ⟨rfl, -⟩ := path.unique halts (path_of_follows follows' plays') nofun
    cases next
  | broken breaks plays' =>
    cases breaks with
    | stopped before next' =>
      have path' := path_of_follows before plays'
      obtain ⟨rfl, -⟩ := path.unique halts path' fun u' due => by rw [next'] at due; cases due
      rw [next] at next'
      cases next'
    | turn before turn next' judged' =>
      obtain ⟨v₀, plays₀, made, -⟩ := plays_concat plays'
      rw [made] at judged'
      have path' := path_of_follows before plays₀
      obtain ⟨rfl, rfl⟩ := path.unique halts path' (halts_of_error next' judged')
      have used := Next.use.inj (next.symm.trans next')
      rw [← used, judged] at judged'
      rw [Except.error.inj judged']

/-- An attempt whose run comes to a turn with an answer that will not do fails with what is made
of that. -/
theorem connect_at_turn {u : Use} {e : Failure} (bound : s.session.account = some k)
    (idle : isReady s.session = false) (kept : PhraseKept s)
    (up : (s.world.dial k).1.openFault = none)
    (follows : Follows (s.world.accounts k) (lastTag s) turns σ) (plays : (newWire s k).Plays turns v)
    (next : due (s.world.accounts k) (lastTag s) σ = .use u)
    (judged : judge (s.world.accounts k) σ (v.turn u) = .error e) :
    ∃ s', connect s = .error (verdict σ.logsIn e) s' ∧ s'.session.phase = .failed := by
  have ended := connect_ended bound idle kept up
  cases made : connect s with
  | ok r s' =>
    have none := (ended.of_ok made).at_turn follows plays next judged
    cases none
  | error e' s' =>
    obtain ⟨failed, off⟩ := ended.of_error made
    have same := off.at_turn follows plays next judged
    rw [Except.error.inj same]
    exact ⟨s', rfl, failed⟩

end ImapSession.Opening
