import ImapSession.Proofs.Script

/-!
What a ready session rests on. Every turn of its opening was answered, but an
answer may end in a request to continue as well as in a completion, and only the
digest login asks which of the two it was. So a session is ready with every command
completed exactly if no server asked for more where there is nothing more to send.
-/
namespace ImapSession.Opening

variable {a : Account} {t : UInt64} {turns : List Turn}

def last? (turn : Turn) : Option Response := turn.answer.toOption.bind List.getLast?

/-- The server said that the command is done, and went well. -/
def Completed (turn : Turn) : Prop := ∃ r, last? turn = some r ∧ r.isCompletion ∧ r.isOk

def Prompted (turn : Turn) : Prop := ∃ r, last? turn = some r ∧ r.isContinuation

/-- The commands of an opening that have nothing to send after them: all but the one
that begins the digest login. -/
inductive Plain (a : Account) (t : UInt64) : Use → Prop
  | capability : Plain a t (.command (t + 1) Capabilities.word false)
  | startTls : Plain a t (.command (t + 2) Op.startTls false)
  | capabilityAgain : Plain a t (.command (t + 3) Capabilities.word false)
  | login (n : UInt64) (q : String) (h : a.phrase = .ok q) : Plain a t (.command n q true)

theorem not_prompted {turn : Turn} (h : Completed turn) : ¬ Prompted turn := by
  obtain ⟨r, hr, completion, -⟩ := h
  rintro ⟨r', hr', continuation⟩
  obtain rfl : r = r' := Option.some.inj (hr.symm.trans hr')
  simp [Response.not_continuation completion] at continuation

/-- An answer to a line ends in a completion or in a request to go on. -/
theorem completed_or_prompted {w : Wire} {line shown : String}
    (h : Answered (w.turn (.line line shown))) :
    Completed (w.turn (.line line shown)) ∨ Prompted (w.turn (.line line shown)) := by
  obtain ⟨rs, answer⟩ := h
  obtain ⟨before, r, rfl, terminal, good⟩ := Wire.answers_line answer
  have hlast : last? (w.turn (.line line shown)) = some r := by
    simp [last?, answer, Except.toOption]
  rcases good with continuation | ok
  · exact .inr ⟨r, hlast, continuation⟩
  · by_cases continuation : r.isContinuation = true
    · exact .inr ⟨r, hlast, continuation⟩
    · refine .inl ⟨r, hlast, ?_, ok⟩
      simpa [Framer.isTerminal, continuation] using terminal

/-- The last turn of the digest login went well, since the server had to say so. -/
theorem completed_of_done {w : Wire} {rs : List Response} {line shown : String}
    (answer : (w.turn (.line line shown)).answer = .ok rs)
    (done : rs.getLast?.any Response.isCompletion = true) :
    Completed (w.turn (.line line shown)) := by
  rcases completed_or_prompted ⟨rs, answer⟩ with completed | ⟨r, hr, continuation⟩
  · exact completed
  · have hlast : rs.getLast? = some r := by
      simpa [last?, answer, Except.toOption] using hr
    rw [hlast, Option.any_some] at done
    simp [Response.not_continuation done] at continuation

/-- A complete run ends in the completion of its login, if the plain login does. -/
theorem last_completed {w v : Wire} {c : Capabilities} (h : Follows a t turns (.opened c))
    (plays : w.Plays turns v)
    (plain : c.has Op.digestOffer = false →
      ∀ turn ∈ turns, Plain a t turn.use → Completed turn) :
    ∃ turn, turns.getLast? = some turn ∧ Completed turn := by
  cases h with
  | turn before turn next judged =>
    obtain ⟨rs, u, answer, used, step⟩ := step_of_judge next judged
    refine ⟨turn, by simp, ?_⟩
    cases step with
    | login c isSecured q settled unoffered built =>
      exact plain unoffered turn (by simp) (used ▸ .login _ q built)
    | complete c done =>
      obtain ⟨u, made⟩ := plays.made turn (by simp)
      rw [used] at made
      rw [made] at answer ⊢
      exact completed_of_done answer done

/-- A plain command of a run that was answered went well, unless more was asked for. -/
theorem completed_of_not_prompted {w v : Wire} {turn : Turn} (plays : w.Plays turns v)
    (hm : turn ∈ turns) (answered : Answered turn) (plain : Plain a t turn.use)
    (unprompted : ¬ Prompted turn) : Completed turn := by
  obtain ⟨u, made⟩ := plays.made turn hm
  cases hu : turn.use with
  | line text shown =>
    rw [hu] at made
    rw [made] at answered unprompted ⊢
    exact (completed_or_prompted answered).resolve_right unprompted
  | greeting => rw [hu] at plain; cases plain
  | secure => rw [hu] at plain; cases plain

/-- A session that was opened has had each plain command completed, and its login
last of all, exactly if none of these commands was answered by a request to go on. -/
theorem connect_completed_iff {s s' : Scene} {k : Nat} (reached : Reached s)
    (bound : s.session.account = some k) (idle : Op.isReady s.session = false)
    (opened : Op.connect s = .ok () s') :
    let a := s.world.accounts k
    let t := lastTag s
    s'.session.phase = .ready ∧ ∃ turns acts login,
      Ran (newWire s k) (s.world.log ++ closing s) k turns acts s' ∧
      Login a (loginTag t (offersTls a turns)) login ∧
      turns.map Turn.use = script t (offersTls a turns) login ∧
      (((∀ turn ∈ turns, Plain a t turn.use → Completed turn) ∧
          ∃ turn, turns.getLast? = some turn ∧ Completed turn) ↔
        ∀ turn ∈ turns, Plain a t turn.use → ¬ Prompted turn) := by
  intro a t
  obtain ⟨ready, turns, acts, follows, ran⟩ :=
    (connect_ends bound idle reached.phraseKept).of_ok opened
  obtain ⟨login, ends, uses⟩ := scriptedWhole_of_follows follows
  obtain ⟨v, plays⟩ := ran.plays
  refine ⟨ready, turns, acts, login, ran, ends, uses, ?_⟩
  constructor
  · rintro ⟨completed, -⟩ turn hm plain
    exact not_prompted (completed turn hm plain)
  · intro unprompted
    have completed : ∀ turn ∈ turns, Plain a t turn.use → Completed turn := fun turn hm plain =>
      completed_of_not_prompted plays hm (follows.answered turn hm) plain
        (unprompted turn hm plain)
    exact ⟨completed, last_completed follows plays fun _ => completed⟩

def obliging : String :=
  "* OK hello\r\n* CAPABILITY IMAP4rev1\r\n1 OK done\r\n2 OK welcome\r\n"

theorem connect_obliging : ∃ s', Op.connect (sampleScene obliging) = .ok () s' ∧
    s'.session.phase = .ready ∧ ∃ turns acts,
      Ran (newWire (sampleScene obliging) 0) [] 0 turns acts s' ∧
      (((∀ turn ∈ turns, Plain ((sampleWorld obliging).accounts 0) 0 turn.use → Completed turn) ∧
          ∃ turn, turns.getLast? = some turn ∧ Completed turn) ↔
        ∀ turn ∈ turns, Plain ((sampleWorld obliging).accounts 0) 0 turn.use → ¬ Prompted turn) := by
  cases h : Op.connect (sampleScene obliging) with
  | error e s' =>
    have : Op.succeeded (Op.connect (sampleScene obliging)) = true := by decide +kernel
    simp [h, Op.succeeded] at this
  | ok a s' =>
    obtain ⟨ready, turns, acts, login, ran, -, -, exact⟩ :=
      connect_completed_iff (k := 0) (.bound (sampleWorld obliging) 0) rfl rfl h
    exact ⟨s', rfl, ready, turns, acts, ran, exact⟩

/-- A server that completes no command at all, but asks for more instead. -/
def demanding : String := "* OK hello\r\n+ go on\r\n+ go on\r\n"

/-- The session sends both commands and is ready, with no completion on the wire. -/
theorem connect_demanding :
    (∃ s', Op.connect (sampleScene demanding) = .ok () s' ∧ s'.session.phase = .ready ∧
      s'.world.log.map Event.act = [.dial, .establish, .write "1 CAPABILITY" "1 CAPABILITY",
        .write "2 LOGIN user \"secret\"" "2 [IMAP command redacted]"]) ∧
      (Lines.pieces (Utf8.encode demanding)).all fun line =>
        (Line.response? line).all fun r => !r.isCompletion := by
  refine ⟨?_, by decide +kernel⟩
  have facts : (match Op.connect (sampleScene demanding) with
      | .ok _ s' => decide (s'.session.phase = .ready ∧ s'.world.log.map Event.act =
          [.dial, .establish, .write "1 CAPABILITY" "1 CAPABILITY",
            .write "2 LOGIN user \"secret\"" "2 [IMAP command redacted]"])
      | .error _ _ => false) = true := by decide +kernel
  cases h : Op.connect (sampleScene demanding) with
  | error e s' => simp [h] at facts
  | ok a s' =>
    rw [h] at facts
    exact ⟨s', rfl, of_decide_eq_true facts⟩

end ImapSession.Opening
