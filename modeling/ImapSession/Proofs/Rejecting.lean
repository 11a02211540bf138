import ImapSession.Proofs.Collecting
import ImapSession.Proofs.Mending
import ImapSession.Proofs.Phrasing
import ImapSession.Proofs.Reporting
import ImapSession.Proofs.Retracing

/-!
Commands that are turned down in the course of an opening, from the bytes of the answer to what
the caller is given and the owner of the account is told. What the server says is taken from its
line; what it means depends on the code, the status and on whether the client was logging in.
-/
namespace ImapSession

open Token (cr lf)

/-- A line that completes a command with another status than OK. -/
structure Rejection where
  tag : List UInt8
  body : List UInt8
  status : Status
  after : List UInt8
  code : Option String
  text : List UInt8
  named : tag ≠ [] ∧ tag ≠ [Line.star] ∧ ∀ b ∈ tag, Line.isTagByte b = true
  opens : Line.Opens status body after
  coded : Line.Coded after code text
  failed : status ≠ .ok
  clean : cr ∉ text ∧ lf ∉ text

namespace Line

/-- A character for itself, wherever it stands, and no part of a line end. -/
def Simple (b : UInt8) : Prop := b.toNat < 0x80 ∧ b ≠ cr ∧ b ≠ lf

instance (b : UInt8) : Decidable (Simple b) := inferInstanceAs (Decidable (_ ∧ _ ∧ _))

theorem simple_letter {b : UInt8} (h : Ascii.isLetter b = true) : Simple b := by
  have all : ∀ v < 256, Ascii.isLetter (UInt8.ofNat v) = true → Simple (UInt8.ofNat v) := by
    decide +kernel
  have one := all b.toNat b.toNat_lt
  rw [UInt8.ofNat_toNat] at one
  exact one h

theorem simple_gap {b : UInt8} (h : Token.isGap b = true) : Simple b := by
  have either : b = 0x20 ∨ b = 0x09 := by simpa [Token.isGap] using h
  rcases either with rfl | rfl <;> decide

end Line

namespace Rejection

variable (r : Rejection)

def line : List UInt8 := r.tag ++ Line.space :: r.body

def bytes : List UInt8 := r.line ++ [cr, lf]

def said : String := Blank.trim (Utf8.decode r.text)

def refusal : Refusal where
  raw := Utf8.decode r.line
  status := r.status.name
  text := r.said
  code := r.code.getD ""

/-- The rejection says something about the credentials: its code does, or it is a NO without a
code. -/
def OfCredentials : Prop :=
  r.code = some "AUTHENTICATIONFAILED" ∨ r.code = some "EXPIRED" ∨
    r.status = .no ∧ (r.code = none ∨ r.code = some "")

instance : Decidable r.OfCredentials :=
  inferInstanceAs (Decidable (_ ∨ _ ∨ _ ∧ (_ ∨ _)))

/-- What an opening fails with over it, and what is reported of that. -/
def outcome (inLogin : Bool) : Failure × List Health :=
  if r.code = some "UNAVAILABLE" then (.unavailable r.said, [.serverError])
  else if inLogin = true ∧ r.OfCredentials then
    (.denied (.refused r.refusal), [.serverError, .badConfiguration])
  else (.refused r.refusal, [.serverError])

def response : Response where
  message := .completion (Utf8.decode r.tag) ⟨r.status, r.code, r.said⟩
  raw := r.bytes

@[simp] theorem response_bytes : Line.response? r.bytes = some r.response := by
  have heading := Line.heading_iff.2 (.tagged r.body r.named.1 r.named.2.1 r.named.2.2)
  have condition : Line.conditionOf? r.body = some ⟨r.status, r.code, r.said⟩ :=
    Line.conditionOf_iff.2 ⟨r.after, r.text, r.opens, r.coded, rfl⟩
  have message : Line.messageOf? r.line = some r.response.message := by
    rw [Line.messageOf?, line, heading]
    simp only [condition, Option.map_some, response]
  rw [Line.response?, bytes, Framer.chomp_crlf, message]
  rfl

@[simp] theorem isOk_response : r.response.isOk = false := by
  have other := r.failed
  simpa [response, Response.isOk, Response.status?, Response.condition?] using other

/-- Before its text, a line has letters, gaps and brackets, and none of them ends it. -/
theorem line_text : ∃ x run, r.line = x ++ run ++ r.text ∧ run ≠ [] ∧ ∀ b ∈ run, Line.Simple b := by
  obtain ⟨word, gap, body, letters, -, gaps, -, -⟩ := r.opens
  have front : ∀ b ∈ Line.space :: (word ++ gap), Line.Simple b := by
    intro b hb
    rcases List.mem_cons.1 hb with rfl | hb
    · decide
    rcases List.mem_append.1 hb with hb | hb
    · exact Line.simple_letter (letters b hb)
    · exact Line.simple_gap (gaps b hb)
  have coded := r.coded
  rw [line, body]
  generalize r.after = after, r.code = code, r.text = text at coded ⊢
  cases coded with
  | plain => exact ⟨r.tag, _, by simp, by simp, front⟩
  | @code name args gap' text word' inside all ends =>
    refine ⟨r.tag ++ Line.space :: (word ++ (gap ++ Line.openCode :: (name ++ args))),
      Line.closeCode :: gap', by simp, by simp, ?_⟩
    intro b hb
    rcases List.mem_cons.1 hb with rfl | hb
    · decide
    · exact Line.simple_gap (all b hb)

@[simp] theorem response_shown : r.response.shown = Utf8.decode r.line := by
  obtain ⟨x, run, line, some, plain⟩ := r.line_text
  obtain ⟨front, a, rfl⟩ := (List.eq_nil_or_concat run).resolve_left some
  rw [List.concat_eq_append] at line plain
  obtain ⟨small, notCr, notLf⟩ := plain a (by simp)
  have clean : cr ∉ a :: r.text ∧ lf ∉ a :: r.text := by
    simp [r.clean, Ne.symm notCr, Ne.symm notLf]
  have whole : r.line = (x ++ front) ++ a :: r.text := by simp [line]
  rw [response, bytes, whole]
  exact Response.shown_line _ small clean

/-- A rejection is passed on with all that its line says. -/
@[simp] theorem refusal_response : Refusal.ofResponse r.response = r.refusal := by
  rw [Refusal.ofResponse, response_shown]
  rfl

theorem sameName_code {name : String} (some : name ≠ "") (capital : Ascii.upper name = name) :
    Ascii.sameName r.refusal.code name = true ↔ r.code = .some name :=
  Line.sameName_coded r.coded some capital

theorem ofAbsence_iff : r.refusal.ofAbsence = true ↔ r.code = some "UNAVAILABLE" :=
  r.sameName_code (by decide) rfl

theorem ofCredentials_iff : r.refusal.ofCredentials = true ↔ r.OfCredentials := by
  have no : Ascii.sameName r.refusal.status (Status.name .no) = true ↔ r.status = .no := by
    show Ascii.sameName r.status.name (Status.name .no) = true ↔ _
    cases r.status <;> decide
  have uncoded : r.refusal.code = "" ↔ r.code = none ∨ r.code = some "" := by
    rw [refusal]
    cases r.code <;> simp
  rw [Refusal.ofCredentials, Bool.or_eq_true, Bool.or_eq_true, Bool.and_eq_true, beq_iff_eq,
    r.sameName_code (by decide) rfl, r.sameName_code (by decide) rfl, no, uncoded, or_assoc]
  rfl

/-- What the opening makes of a rejection is what the rejection calls for. -/
theorem outcome_eq (inLogin : Bool) :
    r.outcome inLogin = (Opening.verdict inLogin (ImapSession.refusal r.response),
      (Opening.verdict inLogin (ImapSession.refusal r.response)).reports) := by
  rw [ImapSession.refusal, refusal_response, outcome]
  by_cases absent : r.code = some "UNAVAILABLE"
  · rw [if_pos absent, if_pos (r.ofAbsence_iff.2 absent)]
    cases inLogin <;> rfl
  · rw [if_neg absent, if_neg (mt r.ofAbsence_iff.1 absent)]
    by_cases denied : inLogin = true ∧ r.OfCredentials
    · obtain ⟨rfl, credentials⟩ := denied
      rw [if_pos ⟨rfl, credentials⟩, Opening.verdict, if_pos (r.ofCredentials_iff.2 credentials)]
      rfl
    · rw [if_neg denied]
      cases inLogin with
      | false => rfl
      | true =>
        have other : ¬ r.refusal.ofCredentials = true := fun credentials =>
          denied ⟨rfl, r.ofCredentials_iff.1 credentials⟩
        rw [Opening.verdict, if_neg other]
        rfl

/-- Before the login nobody is denied anything. -/
theorem outcome_early (d : Denial) : (r.outcome false).1 ≠ .denied d := by
  rw [outcome]
  split
  · simp
  · simp

end Rejection

/-- Untagged responses are read, as long as there are some. -/
inductive Framer.Skips : Framer → Stream → Framer → Stream → Prop
  | none {f : Framer} {s : Stream} : Skips f s f s
  | untagged {f g h : Framer} {s t u : Stream} {r : Response} (read : f.next s = (.ok r, g, t))
      (kind : r.isUntagged = true) (rest : Skips g t h u) : Skips f s h u

/-- The reader cuts these bytes off the stream, as one response. -/
def Framer.Cuts (f : Framer) (s : Stream) (bytes : List UInt8) : Prop :=
  (gather s.idle f.held.reverse s.segments).outcome = .response ∧
    (gather s.idle f.held.reverse s.segments).back.reverse = bytes

theorem Framer.next_cuts {f : Framer} {s : Stream} {bytes : List UInt8} {r : Response}
    (cuts : f.Cuts s bytes) (reads : Line.response? bytes = some r) :
    ∃ t, f.next s = (.ok r, .empty, t) := by
  obtain ⟨response, rfl⟩ := cuts
  refine ⟨{ s with segments := (gather s.idle f.held.reverse s.segments).rest }, ?_⟩
  rw [next]
  simp only [response, reads]

/-- What is skipped only comes before the end of the answer. -/
theorem Framer.batchOnto_skips {f g h : Framer} {s t u : Stream} {r : Response}
    (skips : Skips f s g t) (last : g.next t = (.ok r, h, u)) (ends : isTerminal r = true)
    (done : List Response) : ∃ before, batchOnto done f s = (.ok (before, r), h, u) := by
  induction skips generalizing done with
  | none => exact ⟨done.reverse, batchOnto_terminal last ends done⟩
  | untagged read kind rest ih =>
    obtain ⟨before, batch⟩ := ih last (_ :: done)
    exact ⟨before, (batchOnto_untagged read (Response.untagged_iff.1 kind) done).trans batch⟩

/-- Only an open link takes a line. -/
theorem Link.isOpen_written {l : Link} {text : String} (h : (l.write text).1 = .ok ()) :
    (l.write text).2.isOpen = true := by
  obtain ⟨incoming, peer, written⟩ := Link.written h
  rw [written]
  unfold Link.write at h
  split at h
  · cases h
  · rename_i isOpen
    simpa using isOpen

namespace Wire

/-- A line goes out, and what comes back are untagged responses and then these bytes. -/
def Hears (w : Wire) (text : String) (bytes : List UInt8) : Prop :=
  (w.link.write text).1 = .ok () ∧
    ∃ f s, Framer.Skips w.framer (w.link.write text).2.stream f s ∧ f.Cuts s bytes

/-- A completion that is heard with another status than OK is refused. -/
theorem answer_hears {w : Wire} {text shown : String} {bytes : List UInt8} {r : Response}
    (heard : w.Hears text bytes) (reads : Line.response? bytes = some r)
    (completes : r.isCompletion = true) (other : r.isOk = false) :
    (w.use (.line text shown)).answer = .error (refusal r) := by
  obtain ⟨written, f, s, skips, cuts⟩ := heard
  obtain ⟨t, last⟩ := Framer.next_cuts cuts reads
  have ends : Framer.isTerminal r = true := by simp [Framer.isTerminal, completes]
  obtain ⟨before, batch⟩ := Framer.batchOnto_skips skips last ends []
  have isOpen := Link.isOpen_written written
  have failed : ¬(r.isContinuation || r.isOk) = true := by
    simp [Response.not_continuation completes, other]
  rcases hw : w.link.write text with ⟨result, l⟩
  simp only [hw] at written batch isOpen
  subst written
  have read : reading Framer.batch { w with link := l } =
      (.ok (before, r), ⟨{ l with incoming := t.segments }, .empty⟩) := by
    rw [reading, if_pos isOpen, Framer.batch, batch]
  simp only [use, Wire.line, hw, collect, read, if_neg failed]

end Wire

namespace Opening

open Op (isReady)

/-- The lines that are sent in an opening for which the server owes an answer, and whether they
are part of the login: the login itself, or any of the lines of an exchange. -/
inductive Asked (a : Account) : String → Bool → Prop
  | capability (tag : UInt64) : Asked a (tagged tag Capabilities.word) false
  | startTls (tag : UInt64) : Asked a (tagged tag Op.startTls) false
  | login (tag : UInt64) {q : String} (built : a.phrase = .ok q) : Asked a (tagged tag q) true
  | authenticate (tag : UInt64) : Asked a (tagged tag authenticate) true
  | answer (x : Exchange) : Asked a (Exchange.encode x.answer) true
  | finish : Asked a "" true

variable {a : Account} {t : UInt64} {σ : Stage} {text shown : String}

theorem asked_of_due (next : due a t σ = .use (.line text shown)) : Asked a text σ.logsIn := by
  generalize made : Use.line text shown = u at next
  cases due_cases next with
  | greeting => cases made
  | offer =>
    obtain ⟨rfl, -⟩ := Use.line.inj made
    exact .capability _
  | agree c offered =>
    obtain ⟨rfl, -⟩ := Use.line.inj made
    have early : (Stage.known c false).logsIn = false := by simp [Stage.logsIn, offered]
    rw [early]
    exact .startTls _
  | secure => cases made
  | offerAgain =>
    obtain ⟨rfl, -⟩ := Use.line.inj made
    exact .capability _
  | login c isSecured q settled plain built =>
    obtain ⟨rfl, -⟩ := Use.line.inj made
    have login : (Stage.known c isSecured).logsIn = true := by simp [Stage.logsIn, settled]
    rw [login]
    exact .login _ built
  | challenge c isSecured username password settled offered given =>
    obtain ⟨rfl, -⟩ := Use.line.inj made
    have login : (Stage.known c isSecured).logsIn = true := by simp [Stage.logsIn, settled]
    rw [login]
    exact .authenticate _
  | prove c x =>
    obtain ⟨rfl, -⟩ := Use.line.inj made
    exact .answer x
  | complete =>
    obtain ⟨rfl, -⟩ := Use.line.inj made
    exact .finish

/-- A command that is turned down ends the opening, at whatever point of it. What comes of that
is decided by the code first, and after that only in a login by the status; the caller is given
the line with all that it says, and the owner is told of the server, and of the credentials if
it was those. -/
theorem connect_rejected {s : Scene} {k : Nat} {v : Wire} {turns : List Turn} (reached : Reached s)
    (bound : s.session.account = some k) (idle : isReady s.session = false)
    (up : (s.world.dial k).1.openFault = none)
    (follows : Follows (s.world.accounts k) (lastTag s) turns σ)
    (plays : (newWire s k).Plays turns v)
    (next : due (s.world.accounts k) (lastTag s) σ = .use (.line text shown)) (r : Rejection)
    (heard : v.Hears text r.bytes) :
    Asked (s.world.accounts k) text σ.logsIn ∧
      (σ.logsIn = false → ∀ d, (r.outcome σ.logsIn).1 ≠ .denied d) ∧
      ∃ s', Op.connect s = .error (r.outcome σ.logsIn).1 s' ∧ s'.session.phase = .failed ∧
        s'.told k = s.told k ++ (r.outcome σ.logsIn).2 := by
  have answer : (v.turn (.line text shown)).answer = .error (refusal r.response) :=
    Wire.answer_hears heard r.response_bytes rfl r.isOk_response
  obtain ⟨s', fails, failed⟩ :=
    connect_at_turn bound idle reached.phraseKept up follows plays next (judge_error answer)
  obtain ⟨-, told⟩ := (Op.connect_adds bound idle).of_error fails
  have early : σ.logsIn = false → ∀ d, (r.outcome σ.logsIn).1 ≠ .denied d := by
    intro early d
    rw [early]
    exact r.outcome_early d
  refine ⟨asked_of_due next, early, ?_⟩
  rw [r.outcome_eq]
  exact ⟨s', fails, failed, told⟩

def unwelcome : Rejection where
  tag := Utf8.encode "2"
  body := Utf8.encode "NO [AUTHENTICATIONFAILED] who are you"
  status := .no
  after := Utf8.encode "[AUTHENTICATIONFAILED] who are you"
  code := some "AUTHENTICATIONFAILED"
  text := Utf8.encode "who are you"
  named := by decide +kernel
  opens := Line.opens_iff.2 (by decide +kernel)
  coded := Line.coded_of_code (by decide +kernel)
  failed := by decide
  clean := by decide +kernel

/-- The user it turned down is told so in its own words, with the line they stand in. -/
theorem connect_rejected_unwelcoming : ∃ s', Op.connect (sampleScene unwelcoming) =
      .error (.denied (.refused ⟨"2 NO [AUTHENTICATIONFAILED] who are you", "NO", "who are you",
        "AUTHENTICATIONFAILED"⟩)) s' ∧
    s'.session.phase = .failed ∧ s'.told 0 = [.serverError, .badConfiguration] := by
  let a := (sampleWorld unwelcoming).accounts 0
  let w := newWire (sampleScene unwelcoming) 0
  let offer : Use := .command 1 Capabilities.word false
  let w' := (w.use .greeting).wire
  have hello : (w.turn .greeting).answer =
      .ok [⟨.untagged ⟨.ok, none, "hello"⟩, Utf8.encode "* OK hello\r\n"⟩] := by decide +kernel
  have done : (w'.turn offer).answer =
      .ok [⟨.completion "1" ⟨.ok, none, "done"⟩, Utf8.encode "1 OK done\r\n"⟩] := by decide +kernel
  have greeting : judge a .dialled (w.turn .greeting) = .ok .greeted := judge_ok hello
  have offered : judge a .greeted (w'.turn offer) = .ok (.known .empty false) := judge_ok done
  have follows : Follows a 0 ([] ++ [w.turn .greeting] ++ [w'.turn offer]) (.known .empty false) :=
    .turn (.turn .start _ rfl greeting) _ rfl offered
  have plays : w.Plays ([] ++ [w.turn .greeting] ++ [w'.turn offer]) (w'.use offer).wire :=
    .turn (.turn .none .greeting) offer
  have heard : (w'.use offer).wire.Hears "2 LOGIN user \"secret\"" unwelcome.bytes :=
    ⟨by decide +kernel, _, _, .none, by decide +kernel, by decide +kernel⟩
  obtain ⟨-, -, s', fails, failed, told⟩ := connect_rejected (.bound (sampleWorld unwelcoming) 0) rfl
    rfl rfl follows plays rfl unwelcome heard
  have outcome : unwelcome.outcome true = (.denied (.refused ⟨"2 NO [AUTHENTICATIONFAILED] who are you",
      "NO", "who are you", "AUTHENTICATIONFAILED"⟩), [.serverError, .badConfiguration]) := by
    decide +kernel
  have login : (Stage.known .empty false).logsIn = true := by decide +kernel
  rw [login, outcome] at fails told
  exact ⟨s', fails, failed, told⟩

end Opening

end ImapSession
