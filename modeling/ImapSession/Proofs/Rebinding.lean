import ImapSession.Proofs.Afresh
import ImapSession.Proofs.Lockstep

/-!
What binding a session to another account does to the next command. A session that is
to be opened for the command is opened for the new account, with nothing left of the old
one. But a session that is ready and up is not opened: it keeps its link, and with it the
login of whoever it was opened for, and the command goes out there.
-/
namespace ImapSession

/-- The command went out under the next tag, on this link and as it says in the record.
Nothing else of the session has changed. -/
structure Dispatched (l : Link) (command tag : String) (s t : Scene) : Prop where
  linked : s.session.link = some l
  tag : tag = toString (Opening.lastTag s + 1).toNat
  session : ∃ l', l.Used l' ∧ t.session = { s.session with link := some l' }
  recorded : ∃ shown, t.world.log =
    s.world.log ++ [⟨l.owner, .write (tagged (Opening.lastTag s + 1) command) shown⟩]

namespace Op

open Opening

variable {command tag : String} {sensitive : Bool} {s t : Scene} {k : Nat}

theorem write_lost (line shown : String) (unlinked : s.session.link = none) :
    write line shown s = .error .lost s := by
  have lost : link s = .error .lost s := demand_none unlinked
  exact bind_error lost

theorem write_failed {l l' : Link} {f : Fault} {line : String} (shown : String)
    (linked : s.session.link = some l) (written : l.write line = (.error f, l')) :
    write line shown s = .error (.link f) ⟨{ s.session with link := some l' }, s.world⟩ := by
  have held : link s = .ok l s := demand_some linked
  rw [write, bind_ok held, written]
  rfl

/-- A command that is sent went out on the link that the session has. -/
theorem sendTagged_dispatched (h : sendTagged command sensitive s = .ok tag t) :
    ∃ l, Dispatched l command tag s t := by
  let drawn : Scene := { s with world := { s.world with
    tags := put s.world.tags s.session.counter (lastTag s + 1) } }
  let shown := if sensitive then tagged (lastTag s + 1) redacted else tagged (lastTag s + 1) command
  have steps : (do
      write (tagged (lastTag s + 1) command) shown
      pure (toString (lastTag s + 1).toNat)) drawn = .ok tag t := h
  cases linked : s.session.link with
  | none =>
    rw [bind_error (write_lost (s := drawn) _ _ linked)] at steps
    cases steps
  | some l =>
    rcases written : l.write (tagged (lastTag s + 1) command) with ⟨result, l'⟩
    cases result with
    | error f =>
      rw [bind_error (write_failed (s := drawn) _ linked written)] at steps
      cases steps
    | ok =>
      obtain ⟨w, shown, sent, -, log⟩ := sendTagged_eq sensitive linked written
      have used := l.used_write (tagged (lastTag s + 1) command)
      have owner := l.owner_write (tagged (lastTag s + 1) command)
      rw [written] at used owner
      rw [h] at sent
      cases sent
      refine ⟨l, linked, rfl, ⟨l', used, rfl⟩, shown, ?_⟩
      rw [← owner]
      exact log

end Op

namespace Opening

open Op

variable {command tag : String} {sensitive : Bool} {s t : Scene} {c : Nat}

/-- The link a session has after an attempt is one that the account gave out. -/
theorem connect_owner {k : Nat} (bound : s.session.account = some k)
    (idle : isReady s.session = false) (kept : PhraseKept s) :
    Ends connect s (fun _ u => ∀ l, u.session.link = some l → l.owner = k) fun _ _ => True := by
  have bound' : (cleared s).session.account = some k := by simpa using bound
  rw [Ends, connect_eq bound idle, attemptOpening_eq]
  refine ends_bind.2 (ends_attempt.2 ((establish_along bound' kept.cleared).imp ?_ ?_))
  · rintro - _ ⟨x, rfl, _, along⟩ l hl
    cases hl
    exact along.owned
  · intro e u _
    rw [Ends, conclude_error]
    trivial

/-- The session was opened for the account, as a new one would have been, and the command
then went out on the link that was got from the account. -/
def SentAfresh (c : Nat) (command tag : String) (s t : Scene) : Prop :=
  ∃ u l, Opened (s.world.accounts c) (s.world.tags (s.world.accounts c).counter) (newWire s c)
      (s.world.log ++ closing s) c u ∧
    (∃ u', connect ⟨.bound s.world c, s.world⟩ = .ok () u' ∧
      Agree c (s.world.log ++ closing s) s.world.log u u' ∧
      u'.session.capabilities = u.session.capabilities) ∧
    l.owner = c ∧ Dispatched l command tag u t

def rebound (s : Scene) (c : Nat) : Scene := ⟨s.session.bind s.world c, s.world⟩

theorem rebound_serve (s : Scene) (c : Nat) : ((Request.bind c).serve s).2 = rebound s c := rfl

theorem send_idle (reached : Reached s) (idle : isReady s.session = false)
    (sent : send command sensitive (rebound s c) = .ok tag t) : SentAfresh c command tag s t := by
  have reached' : Reached (rebound s c) := .served reached (.bind c)
  have kept := reached'.standing.phrase
  have bound : (rebound s c).session.account = some c := rfl
  have idle' : isReady (rebound s c).session = false := idle
  obtain ⟨r, u, u', h, h', agree, offers⟩ :=
    connect_afresh (w := s.world) reached' bound idle' rfl rfl rfl
  cases r with
  | error e =>
    rw [send, bind_error h] at sent
    cases sent
  | ok =>
    rw [send, bind_ok h] at sent
    obtain ⟨l, dispatched⟩ := sendTagged_dispatched sent
    have owner := (connect_owner bound idle' kept).of_ok h l dispatched.linked
    have opened := (connect_ends bound idle' kept).of_ok h
    refine ⟨u, l, opened, ⟨u', h', agree, ?_⟩, owner, dispatched⟩
    rcases offers with same | ⟨e, v, -, broken⟩
    · exact same
    · cases broken

theorem send_ready (ready : isReady s.session = true)
    (sent : send command sensitive (rebound s c) = .ok tag t) :
    ∃ l, Dispatched l command tag (rebound s c) t := by
  have ready' : isReady (rebound s c).session = true := ready
  rw [send, bind_ok (connect_ready ready')] at sent
  exact sendTagged_dispatched sent

/-- What is opened afresh is recorded, and more than a line is. -/
theorem SentAfresh.recorded (h : SentAfresh c command tag s t) :
    s.world.log.length + 1 < t.world.log.length := by
  obtain ⟨u, l, ⟨-, turns, acts, -, ran⟩, -, -, dispatched⟩ := h
  obtain ⟨shown, log⟩ := dispatched.recorded
  have some : 0 < acts.length := by
    have noticed := ran.noticed
    cases acts with
    | nil => cases noticed
    | cons => exact Nat.succ_pos _
  rw [log, ran.recorded]
  simp only [List.length_append, List.length_map, List.length_cons, List.length_nil]
  omega

theorem send_of_tag {u : Scene}
    (sent : (Request.send command sensitive).serve u = (.tag tag, t)) :
    send command sensitive u = .ok tag t := by
  cases h : send command sensitive u with
  | ok given v =>
    have answered : (Request.send command sensitive).op u = .ok (.tag given) v := bind_ok h
    rw [Request.serve, answered] at sent
    cases sent
    rfl
  | error e v =>
    have failed : (Request.send command sensitive).op u = .error e v := bind_error h
    rw [Request.serve, failed] at sent
    cases sent

/-- The command that is sent once a session is bound to an account goes out on a link that
was opened for this account exactly if the session was not ready and up before. If it was,
nothing is done but to write the line, and on the link that the session had: with what was
offered and who was logged in there, and whichever account had given it out. -/
theorem send_rebound (reached : Reached s)
    (sent : (Request.send command sensitive).serve ((Request.bind c).serve s).2 = (.tag tag, t)) :
    (SentAfresh c command tag s t ↔ isReady s.session = false) ∧
      (isReady s.session = true → ∃ l, Dispatched l command tag (rebound s c) t) := by
  rw [rebound_serve] at sent
  have ran := send_of_tag sent
  have stays := fun ready => send_ready (s := s) ready ran
  refine ⟨⟨fun afresh => ?_, fun idle => send_idle reached idle ran⟩, stays⟩
  cases ready : isReady s.session with
  | false => rfl
  | true =>
    obtain ⟨l, dispatched⟩ := stays ready
    obtain ⟨shown, log⟩ := dispatched.recorded
    have longer := afresh.recorded
    rw [log] at longer
    simp [rebound] at longer

/-- Two accounts, each with a server that completes both commands of a plain opening. -/
def twoWorld : World where
  accounts := fun k =>
    if k = 0 then ⟨some "user", some "secret", "host", [], "nonce", 0⟩
    else ⟨some "other", some "changed", "host", [], "nonce", 1⟩
  supplies := fun _ => Server.supply [⟨Utf8.encode obliging, [], false⟩]
  tags := World.noTags
  log := []

def openedFirst : Scene := (Request.serve .connect ⟨.bound twoWorld 0, twoWorld⟩).2

theorem reached_openedFirst : Reached openedFirst := .served (.bound twoWorld 0) .connect

/-- A session whose link goes down before it is bound to the second account is opened for that. -/
theorem send_rebound_severed :
    let s : Scene := { openedFirst with session := openedFirst.session.sever }
    ∃ t, (Request.send "NOOP" false).serve ((Request.bind 1).serve s).2 = (.tag "3", t) ∧
      SentAfresh 1 "NOOP" "3" s t := by
  intro s
  have facts : isReady s.session = false ∧
      ((Request.send "NOOP" false).serve ((Request.bind 1).serve s).2).1 = .tag "3" := by
    decide +kernel
  obtain ⟨idle, answer⟩ := facts
  have sent : (Request.send "NOOP" false).serve ((Request.bind 1).serve s).2 =
      (.tag "3", ((Request.send "NOOP" false).serve ((Request.bind 1).serve s).2).2) :=
    Prod.ext answer rfl
  exact ⟨_, sent, (send_rebound (.severed reached_openedFirst) sent).1.2 idle⟩

/-- A command for the second account, while the link of the first is still up. -/
def staleSend : Answer × Scene :=
  (Request.send "NOOP" false).serve ((Request.bind 1).serve openedFirst).2

/-- The command for the second account goes out on the link of the first, to whoever was logged in
there. -/
theorem send_rebound_stale : Reached openedFirst ∧ staleSend.1 = .tag "1" ∧
    staleSend.2.session.account = some 1 ∧
    staleSend.2.world.log = openedFirst.world.log ++ [⟨0, .write "1 NOOP" "1 NOOP"⟩] ∧
    staleSend.2.session.capabilities = openedFirst.session.capabilities ∧
    ¬ SentAfresh 1 "NOOP" "1" openedFirst staleSend.2 := by
  have facts : staleSend.1 = .tag "1" ∧ staleSend.2.session.account = some 1 ∧
      staleSend.2.world.log = openedFirst.world.log ++ [⟨0, .write "1 NOOP" "1 NOOP"⟩] ∧
      staleSend.2.session.capabilities = openedFirst.session.capabilities := by decide +kernel
  obtain ⟨answer, account, log, offers⟩ := facts
  refine ⟨reached_openedFirst, answer, account, log, offers, fun afresh => ?_⟩
  have longer := afresh.recorded
  rw [log] at longer
  simp at longer

end Opening

end ImapSession
