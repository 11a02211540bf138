import Mathlib.Data.List.Forall2
import ImapSession.Proofs.Losing
import ImapSession.Proofs.Refusing
import ImapSession.Proofs.Whole

/-!
Commands and answers in step. A ready session faces a server that has one answer for
each command to come, and nothing fails on the link. Then every command is given its own
answer, whether that is the responses or a refusal, and what was not answered yet is left
as it is for the commands after it. The tags are on the lines that go out; the session
does not look for them in what comes back, so that its place in the stream is all that
ties an answer to its command.
-/
namespace ImapSession

open ImapSession.Stream (Smooth delivered)

def Peer.says (p : Peer) : List String → List UInt8
  | [] => []
  | line :: rest => (p.hear (Link.wire line)).1 ++ Peer.says (p.hear (Link.wire line)).2 rest

/-- All that there is to read on a link once these lines are written: what is on its
way already and what is sent in answer. -/
def Link.coming (l : Link) (lines : List String) : List UInt8 :=
  delivered l.incoming ++ l.peer.says lines

def Answer.ofOutcome : Except Failure (List Response) → Answer
  | .ok rs => .responses rs
  | .error e => .failure e

/-- A command and its answer: any number of untagged responses and then a completion,
with whatever status and tag, all of them whole. -/
structure Round where
  command : String
  sensitive : Bool
  before : List Response
  last : Response
  untagged : ∀ r ∈ before, r.isUntagged
  completion : last.isCompletion
  whole : ∀ r ∈ before ++ [last], r.Whole

namespace Round

def request (r : Round) : Request := .execute r.command r.sensitive

def bytes (r : Round) : List UInt8 := (r.before ++ [r.last]).flatMap Response.raw

/-- What the command comes to: the responses if the last one is OK, otherwise what the
last one amounts to as a failure. -/
def outcome (r : Round) : Except Failure (List Response) :=
  if r.last.isOk then .ok (r.before ++ [r.last]) else .error (refusal r.last)

def answer (r : Round) : Answer := .ofOutcome r.outcome

/-- The caller is given all of the responses if the last one is an OK, and otherwise the
failure that the last one calls for. -/
inductive Given (r : Round) : Answer → Prop
  | responses {tag text : String} {code : Option String}
      (completes : r.last.message = .completion tag ⟨.ok, code, text⟩) :
      Given r (.responses (r.before ++ [r.last]))
  | failure {e : Failure} (refuses : Refuses r.last e) : Given r (.failure e)

theorem given_answer (r : Round) : r.Given r.answer := by
  have read := Framer.response_of_whole (r.whole r.last (by simp))
  rw [answer, outcome]
  by_cases ok : r.last.isOk = true
  · rw [if_pos ok]
    obtain ⟨tag, ⟨status, code, text⟩, completes⟩ := Response.message_completion r.completion
    obtain rfl : status = .ok := by
      simpa [Response.isOk, Response.status?, Response.condition?, completes] using ok
    exact .responses completes
  · rw [if_neg ok]
    exact .failure ((refuses_iff read r.completion (by simpa using ok)).2 rfl)

def lines (t : UInt64) : List Round → List String
  | [] => []
  | r :: rest => tagged (t + 1) r.command :: lines (t + 1) rest

end Round

/-- The link has these answers for these commands, and no other bytes. It takes the
lines, and each answer is there when its command was written. -/
structure Link.Serves (l : Link) (t : UInt64) (rounds : List Round) : Prop where
  isOpen : l.isOpen
  smooth : Smooth l.incoming
  takes : ∀ n < rounds.length, l.writeFaults.lookup (l.writes + 1 + n) = none
  only : l.coming (Round.lines t rounds) = rounds.flatMap Round.bytes
  prompt : ∀ n ≤ rounds.length,
    (rounds.take n).flatMap Round.bytes <+: l.coming ((Round.lines t rounds).take n)

/-- A ready session that holds nothing half read, on a link with these answers. -/
structure Facing (rounds : List Round) (s : Scene) : Prop where
  ready : s.session.phase = .ready
  clean : s.session.framer = some .empty
  link : ∃ l, s.session.link = some l ∧ l.Serves (Opening.lastTag s) rounds

def linesOf (log : List Event) : List String :=
  log.filterMap fun e =>
    match e.act with
    | .write line _ => some line
    | _ => none

@[simp] theorem linesOf_append (log log' : List Event) :
    linesOf (log ++ log') = linesOf log ++ linesOf log' := List.filterMap_append

namespace Link

variable {l : Link} {t : UInt64} {r : Round} {rest : List Round}

/-- A line that is taken brings its answer behind what is on its way. -/
theorem write_taken (isOpen : l.isOpen) (takes : l.writeFault? = none) (line : String) :
    ∃ incoming, l.write line = (.ok (), { l with
        incoming, peer := (l.peer.hear (wire line)).2, writes := l.writes + 1 }) ∧
      delivered incoming = delivered l.incoming ++ (l.peer.hear (wire line)).1 ∧
      (Smooth l.incoming → Smooth incoming) := by
  rcases hh : l.peer.hear (wire line) with ⟨sent, peer⟩
  by_cases hs : sent = []
  · refine ⟨l.incoming, ?_, by simp [hs], id⟩
    simp [write, isOpen, takes, hh, hs]
  · refine ⟨l.incoming ++ [.bytes sent], ?_, by simp, ?_⟩
    · simp [write, isOpen, takes, hh, hs]
    · intro smooth
      simp [smooth, Stream.isSmooth]

/-- When the next command is written its answer stands in front of all there is, and once
it is read the link serves the commands that are left. -/
theorem Serves.next (h : l.Serves t (r :: rest)) :
    ∃ l' b, l.write (tagged (t + 1) r.command) = (.ok (), l') ∧ l'.isOpen ∧
      Smooth l'.incoming ∧ delivered l'.incoming = r.bytes ++ b ∧
      ∀ left, Smooth left → delivered left = b →
        { l' with incoming := left }.Serves (t + 1) rest := by
  have takes : l.writeFault? = none := h.takes 0 (by simp)
  obtain ⟨incoming, written, hd, smooth⟩ :=
    write_taken h.isOpen takes (tagged (t + 1) r.command)
  have hlines : Round.lines t (r :: rest) =
      tagged (t + 1) r.command :: Round.lines (t + 1) rest := rfl
  have answered : r.bytes <+: delivered incoming := by
    have arrived := h.prompt 1 (by simp)
    rw [hlines] at arrived
    simpa [coming, Peer.says, hd] using arrived
  obtain ⟨b, hb⟩ := answered
  have shifted : ∀ left, delivered left = b → ∀ ls,
      l.coming (tagged (t + 1) r.command :: ls) = r.bytes ++ ({ l with
        incoming := left, peer := (l.peer.hear (wire (tagged (t + 1) r.command))).2,
        writes := l.writes + 1 } : Link).coming ls := by
    intro left hl ls
    rw [coming, Peer.says, ← List.append_assoc, ← hd, ← hb, coming, hl, List.append_assoc]
  refine ⟨_, b, written, h.isOpen, smooth h.smooth, hb.symm, ?_⟩
  intro left smoothLeft hl
  refine ⟨h.isOpen, smoothLeft, ?_, ?_, ?_⟩
  · intro n hn
    have := h.takes (n + 1) (by simpa using hn)
    simpa [Nat.add_assoc, Nat.add_comm] using this
  · have all := h.only
    rw [hlines, shifted left hl] at all
    simpa using all
  · intro n hn
    have arrived := h.prompt (n + 1) (Nat.succ_le_succ hn)
    rw [hlines, List.take_succ_cons, List.take_succ_cons, shifted left hl,
      List.flatMap_cons] at arrived
    exact (List.prefix_append_right_inj _).1 arrived

end Link

namespace Op

variable {s : Scene} {l l' : Link}

theorem write_eq {line : String} (shown : String) (linked : s.session.link = some l)
    (written : l.write line = (.ok (), l')) : write line shown s = .ok ()
      ⟨{ s.session with link := some l' }, s.world.record l'.owner (.write line shown)⟩ := by
  have held : link s = .ok l s := demand_some linked
  rw [write, bind_ok held, written]
  rfl

theorem sendTagged_eq {command : String} (sensitive : Bool) (linked : s.session.link = some l)
    (written : l.write (tagged (Opening.lastTag s + 1) command) = (.ok (), l')) :
    ∃ w shown, sendTagged command sensitive s = .ok (toString (Opening.lastTag s + 1).toNat)
        ⟨{ s.session with link := some l' }, w⟩ ∧
      w.tags s.session.counter = Opening.lastTag s + 1 ∧
      w.log = s.world.log ++
        [⟨l'.owner, .write (tagged (Opening.lastTag s + 1) command) shown⟩] := by
  let drawn : Scene := { s with world := { s.world with
    tags := put s.world.tags s.session.counter (Opening.lastTag s + 1) } }
  exact ⟨_, _, bind_ok (write_eq (s := drawn) _ linked written), put_same _ _ _, rfl⟩

/-- An answer that is there whole is read, and a refusal leaves nothing of it behind. -/
theorem collect_eq {r : Round} {b : List UInt8} (clean : s.session.framer = some .empty)
    (linked : s.session.link = some l) (isOpen : l.isOpen) (smooth : Smooth l.incoming)
    (h : delivered l.incoming = r.bytes ++ b) :
    ∃ left w, delivered left = b ∧ Smooth left ∧ w.tags = s.world.tags ∧
      linesOf w.log = linesOf s.world.log ∧ collect s = ending r.outcome
        ⟨{ s.session with link := some { l with incoming := left } }, w⟩ := by
  obtain ⟨left, hbatch, hl, smoothLeft⟩ := Framer.batchOnto_whole (s := l.stream) [] r.whole
    (fun q hq => Response.untagged_iff.1 (r.untagged q hq))
    (by simp [Framer.isTerminal, r.completion]) smooth h
  let t : Scene := ⟨{ s.session with link := some { l with incoming := left } }, s.world⟩
  have hread : reading Framer.batch s = .ok (r.before, r.last) t := by
    have hf : framer s = .ok .empty s := demand_some clean
    have hl : link s = .ok l s := demand_some linked
    rw [reading, bind_ok hf, bind_ok hl, if_pos isOpen, Framer.batch, hbatch]
    simp only [t, ← clean]
    rfl
  have continued := Response.not_continuation r.completion
  by_cases ok : r.last.isOk = true
  · refine ⟨left, s.world, hl, smoothLeft, rfl, rfl, ?_⟩
    rw [collect, bind_ok hread, Round.outcome]
    simp only [ok, Bool.or_true, if_true]
    rfl
  · have hd : discard t = .ok () t := by
      simp only [discard, setSession, t, clean, Option.map_some]
    obtain ⟨w, tags, lines, hr⟩ : ∃ w, w.tags = s.world.tags ∧
        linesOf w.log = linesOf s.world.log ∧ report .serverError t = .ok () ⟨t.session, w⟩ := by
      refine ⟨_, ?_, ?_, report_eq .serverError t⟩
      · cases t.session.account <;> rfl
      · cases t.session.account with
        | none => rfl
        | some k => simp [World.record, linesOf, t]
    refine ⟨left, w, hl, smoothLeft, tags, lines, ?_⟩
    rw [collect, bind_ok hread, Round.outcome]
    simp only [ok, continued, Bool.or_self, Bool.false_eq_true, if_false]
    rw [bind_ok hd, bind_ok hr, refusal]
    split <;> rfl

end Op

namespace Request

def serveAll : List Request → Scene → List Answer × Scene
  | [], s => ([], s)
  | r :: rest, s =>
    let (a, t) := r.serve s
    let (others, u) := serveAll rest t
    (a :: others, u)

theorem serve_execute {command : String} {sensitive : Bool} {s t : Scene}
    {outcome : Except Failure (List Response)}
    (h : Op.execute command sensitive s = Op.ending outcome t) :
    (execute command sensitive).serve s = (.ofOutcome outcome, t) := by
  cases outcome with
  | ok rs =>
    have answered : (execute command sensitive).op s = .ok (.responses rs) t := Op.bind_ok h
    rw [serve, answered]
    rfl
  | error e =>
    have failed : (execute command sensitive).op s = .error e t := Op.bind_error h
    rw [serve, failed]
    rfl

end Request

/-- The next command is given its answer, and the session faces the rest. -/
theorem serve_round {r : Round} {rest : List Round} {s : Scene} (h : Facing (r :: rest) s) :
    ∃ t, r.request.serve s = (r.answer, t) ∧ Facing rest t ∧
      Opening.lastTag t = Opening.lastTag s + 1 ∧
      linesOf t.world.log =
        linesOf s.world.log ++ [tagged (Opening.lastTag s + 1) r.command] := by
  obtain ⟨l, linked, serves⟩ := h.link
  obtain ⟨l', b, written, isOpen, smooth, hd, served⟩ := serves.next
  have up : Op.isReady s.session = true := by
    simp [Op.isReady, h.ready, Session.isOpen, linked, serves.isOpen]
  obtain ⟨w, shown, sent, drawn, log⟩ := Op.sendTagged_eq r.sensitive linked written
  let u : Scene := ⟨{ s.session with link := some l' }, w⟩
  obtain ⟨left, w', hl, smoothLeft, tags, lines, read⟩ :=
    Op.collect_eq (s := u) h.clean rfl isOpen smooth hd
  have lastTag : w'.tags s.session.counter = Opening.lastTag s + 1 := by rw [tags, drawn]
  have executed : Op.execute r.command r.sensitive s = Op.collect u := by
    rw [Op.execute, Op.send, bind_assoc, Op.bind_ok (Op.connect_ready up), Op.bind_ok sent]
  rw [read] at executed
  refine ⟨⟨{ u.session with link := some { l' with incoming := left } }, w'⟩, ?_,
    ⟨h.ready, h.clean, _, rfl, ?_⟩, lastTag, ?_⟩
  · exact Request.serve_execute executed
  · have given := served left smoothLeft hl
    rw [← lastTag] at given
    exact given
  · rw [lines, log, linesOf_append]
    rfl

theorem serveAll_answers {rounds : List Round} {s : Scene} (h : Facing rounds s) (n : Nat)
    (within : n ≤ rounds.length) :
    ∃ t, Request.serveAll ((rounds.take n).map Round.request) s =
        ((rounds.take n).map Round.answer, t) ∧ Facing (rounds.drop n) t ∧
      linesOf t.world.log =
        linesOf s.world.log ++ Round.lines (Opening.lastTag s) (rounds.take n) := by
  induction rounds generalizing s n with
  | nil =>
    obtain rfl : n = 0 := by simpa using within
    exact ⟨s, rfl, h, by simp [Round.lines]⟩
  | cons r rest ih =>
    cases n with
    | zero => exact ⟨s, rfl, h, by simp [Round.lines]⟩
    | succ n =>
      obtain ⟨u, first, facing, drawn, line⟩ := serve_round h
      obtain ⟨t, others, left, lines⟩ := ih facing n (by simpa using within)
      refine ⟨t, ?_, left, ?_⟩
      · simp only [List.take_succ_cons, List.map_cons, Request.serveAll, first, others]
      · rw [lines, line, drawn, List.append_assoc]
        rfl

/-- Commands and answers stay in step: whichever of them are answered with a refusal,
each of the first so many commands goes out once, under the next tag, and is given its own
answer; and then the session faces the answers to the others, all of them and nothing else. -/
theorem serveAll_rounds {rounds : List Round} {s : Scene} (h : Facing rounds s) (n : Nat)
    (within : n ≤ rounds.length) :
    ∃ answers t, Request.serveAll ((rounds.take n).map Round.request) s = (answers, t) ∧
      List.Forall₂ Round.Given (rounds.take n) answers ∧ Facing (rounds.drop n) t ∧
      linesOf t.world.log =
        linesOf s.world.log ++ Round.lines (Opening.lastTag s) (rounds.take n) := by
  obtain ⟨t, served, left, lines⟩ := serveAll_answers h n within
  refine ⟨_, t, served, ?_, left, lines⟩
  rw [List.forall₂_map_right_iff]
  exact List.forall₂_same.2 fun r _ => r.given_answer

/-- Two commands that are refused, and one between them that is not. -/
def sampleRounds : List Round :=
  [{ command := "SELECT Trash"
     sensitive := false
     before := []
     last := ⟨.completion "1" ⟨.no, some "UNAVAILABLE", "later"⟩,
       Utf8.encode "1 NO [UNAVAILABLE] later\r\n"⟩
     untagged := by decide
     completion := rfl
     whole := by decide +kernel },
   { command := "NOOP"
     sensitive := false
     before := [⟨.data [.atom "2", .atom "EXISTS"], Utf8.encode "* 2 EXISTS\r\n"⟩]
     last := ⟨.completion "2" ⟨.ok, none, "done"⟩, Utf8.encode "2 OK done\r\n"⟩
     untagged := by decide
     completion := rfl
     whole := by decide +kernel },
   { command := "FETCH 3"
     sensitive := false
     before := []
     last := ⟨.completion "3" ⟨.bad, some "CLIENTBUG", "fetch what"⟩,
       Utf8.encode "3 BAD [clientbug] fetch what\r\n"⟩
     untagged := by decide
     completion := rfl
     whole := by decide +kernel }]

def sampleLink : Link :=
  { Server.link ⟨[], sampleRounds.map fun r => ⟨r.bytes, none⟩, false⟩ with isOpen := true }

theorem serves_sampleLink : sampleLink.Serves 0 sampleRounds where
  isOpen := rfl
  smooth := Stream.smooth_nil
  takes := fun _ _ => rfl
  only := by decide +kernel
  prompt := by decide +kernel

def sampleFacing : Scene where
  session := { Session.bound (Opening.sampleWorld "") 0 with
    link := some sampleLink
    framer := some .empty
    phase := .ready }
  world := Opening.sampleWorld ""

/-- The one is told that the server is away, and the other in which words it was refused. -/
theorem serveAll_rounds_sample : Facing sampleRounds sampleFacing ∧
    ∃ answers t, Request.serveAll (sampleRounds.map Round.request) sampleFacing = (answers, t) ∧
      List.Forall₂ Round.Given sampleRounds answers ∧ Facing [] t ∧
      linesOf t.world.log = ["1 SELECT Trash", "2 NOOP", "3 FETCH 3"] ∧
      answers = [.failure (.unavailable "later"),
        .responses [⟨.data [.atom "2", .atom "EXISTS"], Utf8.encode "* 2 EXISTS\r\n"⟩,
          ⟨.completion "2" ⟨.ok, none, "done"⟩, Utf8.encode "2 OK done\r\n"⟩],
        .failure (.refused ⟨"3 BAD [clientbug] fetch what", "BAD", "fetch what", "CLIENTBUG"⟩)] := by
  have facing : Facing sampleRounds sampleFacing := ⟨rfl, rfl, _, rfl, serves_sampleLink⟩
  obtain ⟨answers, t, served, given, left, lines⟩ := serveAll_rounds facing 3 (by decide)
  have first : (Request.serveAll (sampleRounds.map Round.request) sampleFacing).1 = answers :=
    congrArg Prod.fst served
  refine ⟨facing, answers, t, served, given, left, lines, ?_⟩
  rw [← first]
  decide +kernel

end ImapSession
