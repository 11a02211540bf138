import ImapSession.Proofs.Completion
import ImapSession.Proofs.Reporting

/-!
What becomes of a ready session whose link is lost. Only an attempt to open a session
notices it: it reports the loss and leaves the session failed. A command that loses
the link leaves no trace, so the session takes itself to be ready still.
-/
namespace ImapSession

def Failure.isLoss : Failure → Bool
  | .link _ => true
  | .lost => true
  | _ => false

def Request.usesLink : Request → Bool
  | .send _ _ => true
  | .execute _ _ => true
  | .resume _ _ => true
  | .collect => true
  | .read => true
  | _ => false

/-- The request begins with an attempt to open the session if it has to. -/
def Request.opens : Request → Bool
  | .connect => true
  | .send _ _ => true
  | .execute _ _ => true
  | _ => false

/-- The loss was reported, and the session has failed. -/
structure Noticed (k : Nat) (s t : Scene) : Prop where
  account : t.session.account = some k
  told : t.told k = s.told k ++ [.communicationError]
  failed : t.session.phase = .failed

/-- Nothing was reported, and the session is ready as before. -/
structure Unnoticed (k : Nat) (s t : Scene) : Prop where
  account : t.session.account = some k
  told : t.told k = s.told k
  ready : t.session.phase = .ready

theorem Unnoticed.trans {k : Nat} {s t u : Scene} (h : Unnoticed k s t) (h' : Unnoticed k t u) :
    Unnoticed k s u :=
  ⟨h'.account, h'.told.trans h.told, h'.ready⟩

theorem Noticed.not_ready {k : Nat} {s t : Scene} (h : Noticed k s t) :
    Op.isReady t.session = false := by
  simp [Op.isReady, h.failed]

theorem Unnoticed.not_noticed {k : Nat} {s t : Scene} (h : Unnoticed k s t) : ¬ Noticed k s t := by
  intro noticed
  have failed := noticed.failed
  rw [h.ready] at failed
  cases failed

namespace Op

open Opening

variable {α : Type} {s : Scene} {k : Nat}

/-- A loss in a command is not reported by the time the command comes back. -/
theorem Talk.untold {e : Failure} {hs : List Health} (h : Talk e hs) (loss : e.isLoss) :
    hs = [] := by
  cases h with
  | unavailable => simp [Failure.isLoss] at loss
  | refused => simp [Failure.isLoss] at loss
  | _ => rfl

theorem reports_loss {e : Failure} (loss : e.isLoss) : e.reports = [.communicationError] := by
  cases e with
  | link => rfl
  | lost => rfl
  | _ => simp [Failure.isLoss] at loss

/-- No command changes how far the session has come. -/
theorem steady_ready : Steady fun s => s.session.phase = .ready where
  reads _ h _ _ _ := h
  writes h _ _ := h
  forgets h := h
  draws h := h
  wrote _ _ _ h := h
  reported _ _ h := h

/-- What a command does to a ready session that loses its link goes unnoticed. -/
theorem ends_unnoticed {op : Op α} (tells : Tells Talk op)
    (keeps : Keeps (fun s => s.session.phase = .ready) op) (bound : s.session.account = some k)
    (ready : s.session.phase = .ready) :
    Ends op s (fun _ t => Unnoticed k s t) (fun e t => e.isLoss → Unnoticed k s t) := by
  refine ((tells s k bound).and (keeps s ready)).imp ?_ ?_
  · rintro _ t ⟨⟨account, told⟩, still⟩
    exact ⟨account, by simpa using told, still⟩
  · rintro e t ⟨⟨hs, talk, account, told⟩, still⟩ loss
    obtain rfl := talk.untold loss
    exact ⟨account, by simpa using told, still⟩

/-- An attempt leaves the session ready or failed. -/
theorem attemptOpening_phase (s : Scene) : Ends attemptOpening s
    (fun _ t => t.session.phase = .ready) (fun _ t => t.session.phase = .failed) := by
  rw [attemptOpening_eq]
  refine ends_bind.2 (ends_attempt.2 ?_)
  unfold Ends
  cases establish s with
  | ok a t => exact rfl
  | error e t =>
    dsimp only
    rw [conclude_error]

theorem connect_ready (ready : isReady s.session = true) : connect s = .ok () s := by
  have hs : session s = .ok s.session s := rfl
  rw [connect, bind_ok hs, if_pos ready]
  rfl

/-- A loss is noticed in an attempt to open the session, and there alone. -/
theorem connect_noticed (bound : s.session.account = some k) (ready : s.session.phase = .ready) :
    Ends connect s (fun _ t => Unnoticed k s t) (fun e t => e.isLoss → Noticed k s t) := by
  by_cases up : isReady s.session = true
  · rw [Ends, connect_ready up]
    exact ⟨bound, rfl, ready⟩
  · have idle : isReady s.session = false := by simpa using up
    have phase : Ends connect s (fun _ t => t.session.phase = .ready)
        (fun _ t => t.session.phase = .failed) := by
      rw [Ends, connect_eq bound idle]
      exact attemptOpening_phase (cleared s)
    refine ((connect_adds bound idle).and phase).imp ?_ ?_
    · rintro _ t ⟨⟨account, told⟩, opened⟩
      exact ⟨account, by simpa using told, opened⟩
    · rintro e t ⟨⟨account, told⟩, failed⟩ loss
      rw [reports_loss loss] at told
      exact ⟨account, told, failed⟩

/-- What a request does to a session that need not be opened, or is open by then, is a
command on its link. -/
theorem request_commands {r : Request} (uses : r.usesLink) :
    ∃ rest : Op Answer, Tells Talk rest ∧ Keeps (fun s => s.session.phase = .ready) rest ∧
      r.op = if r.opens then connect >>= fun _ => rest else rest := by
  have keeps := steady_ready
  cases r with
  | send command sensitive =>
    refine ⟨do pure (.tag (← sendTagged command sensitive)), ?_, ?_, ?_⟩
    · exact tells_bind (tells_sendTagged _ _) fun _ => tells_pure _
    · exact keeps_bind (keeps_sendTagged keeps _ _) fun _ => keeps_pure _
    · simp [Request.op, Request.opens, send]
  | execute command sensitive =>
    refine ⟨do pure (.responses (← run command sensitive)), ?_, ?_, ?_⟩
    · exact tells_bind (tells_run _ _) fun _ => tells_pure _
    · exact keeps_bind (keeps_run keeps _ _) fun _ => keeps_pure _
    · simp [Request.op, Request.opens, execute, send, run]
  | resume payload sensitive =>
    exact ⟨_, tells_bind (tells_resume payload sensitive) fun _ => tells_pure _,
      keeps_bind (keeps_resume keeps _ _) fun _ => keeps_pure _, rfl⟩
  | collect =>
    exact ⟨_, tells_bind tells_collect fun _ => tells_pure _,
      keeps_bind (keeps_collect keeps) fun _ => keeps_pure _, rfl⟩
  | read =>
    exact ⟨_, tells_bind tells_read fun _ => tells_pure _,
      keeps_bind (keeps_reading keeps _) fun _ => keeps_pure _, rfl⟩
  | _ => simp [Request.usesLink] at uses

end Op

namespace Opening

/-- A ready session that loses its link in a request notices it exactly if the request
had to open the session and could not; the next attempt then starts on a new link.
Otherwise nothing is reported and the session is ready as before, and as long as the
lost link is not closed from outside, the next attempt does nothing. -/
theorem serve_loses {s t : Scene} {k : Nat} {r : Request} {e : Failure}
    (bound : s.session.account = some k) (ready : s.session.phase = .ready) (uses : r.usesLink)
    (failed : r.serve s = (.failure e, t)) (loss : e.isLoss) :
    (Noticed k s t ∨ Unnoticed k s t) ∧
      (Noticed k s t ↔ r.opens ∧ Op.succeeded (Op.connect s) = false) ∧
      (Noticed k s t → Op.connect t = Op.attemptOpening (cleared t)) ∧
      (Unnoticed k s t → t.session.isOpen → Op.connect t = .ok () t) := by
  have afresh : Noticed k s t → Op.connect t = Op.attemptOpening (cleared t) :=
    fun noticed => connect_eq noticed.account noticed.not_ready
  have again : Unnoticed k s t → t.session.isOpen → Op.connect t = .ok () t := by
    intro unnoticed up
    exact Op.connect_ready (by simp [Op.isReady, unnoticed.ready, up])
  obtain ⟨rest, tells, keeps, hop⟩ := Op.request_commands uses
  have ended := Request.op_of_failure failed
  by_cases opens : r.opens = true
  · rw [hop, if_pos opens] at ended
    have attempt := Op.connect_noticed bound ready
    cases hc : Op.connect s with
    | ok a u =>
      rw [Op.bind_ok hc] at ended
      have open? := attempt.of_ok hc
      have lost := (Op.ends_unnoticed tells keeps open?.account open?.ready).of_error ended loss
      have unnoticed := open?.trans lost
      exact ⟨.inr unnoticed, by simp [unnoticed.not_noticed, Op.succeeded], afresh, again⟩
    | error e' u =>
      rw [Op.bind_error hc] at ended
      cases ended
      have noticed := attempt.of_error hc loss
      exact ⟨.inl noticed, by simp [noticed, opens, Op.succeeded], afresh, again⟩
  · rw [hop, if_neg opens] at ended
    have unnoticed := (Op.ends_unnoticed tells keeps bound ready).of_error ended loss
    exact ⟨.inr unnoticed, by simp [unnoticed.not_noticed, opens], afresh, again⟩

def abandoned : Scene := (Request.serve .connect (sampleScene obliging)).2

/-- If the link is closed from outside as well, the session is to be opened again for
the next command, and it is noticed that this cannot be done. -/
theorem serve_loses_severed :
    let s : Scene := { abandoned with session := abandoned.session.sever }
    ∃ t, (Request.send "NOOP" false).serve s = (.failure .lost, t) ∧ Noticed 0 s t := by
  intro s
  have facts : s.session.account = some 0 ∧ s.session.phase = .ready ∧
      ((Request.send "NOOP" false).serve s).1 = .failure .lost ∧
      Op.succeeded (Op.connect s) = false := by decide +kernel
  obtain ⟨bound, ready, lost, fails⟩ := facts
  have served : (Request.send "NOOP" false).serve s =
      (.failure .lost, ((Request.send "NOOP" false).serve s).2) := Prod.ext lost rfl
  have loses := serve_loses bound ready rfl served rfl
  exact ⟨_, served, loses.2.1.2 ⟨rfl, fails⟩⟩

/-- To read on a link whose far end has gone is to lose it unnoticed: nothing is reported, the
session is ready, and to open it does nothing. -/
theorem serve_loses_unnoticed : ∃ t, Request.read.serve abandoned = (.failure .lost, t) ∧
    Reached abandoned ∧ abandoned.session.phase = .ready ∧ t.told 0 = [] ∧
    t.session.phase = .ready ∧ Op.connect t = .ok () t := by
  have facts : (Request.read.serve abandoned).1 = .failure .lost ∧
      abandoned.session.phase = .ready ∧ (Request.read.serve abandoned).2.told 0 = [] ∧
      (Request.read.serve abandoned).2.session.phase = .ready ∧
      Op.isReady (Request.read.serve abandoned).2.session = true := by decide +kernel
  obtain ⟨lost, before, told, ready, up⟩ := facts
  have reached : Reached abandoned := .served (.bound (sampleWorld obliging) 0) .connect
  exact ⟨_, Prod.ext lost rfl, reached, before, told, ready, Op.connect_ready up⟩

end Opening

end ImapSession
