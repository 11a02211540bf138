import ImapSession.Proofs.Wire

/-!
The opening of a session as a protocol, apart from the session that runs it. At
each stage the client makes one use of the link, and what comes back decides the
next stage. A run goes from stage to stage; it can break off where the client
has nothing to send, where the use gets no answer, or where the answer does not
do. The capabilities carried along are those that were learned last.
-/
namespace ImapSession

def Account.phrase (a : Account) : Except Failure String := do
  let (username, password) ← a.credentials
  Op.phrase username password

namespace Opening

inductive Stage where
  | dialled
  | greeted
  | known (c : Capabilities) (secured : Bool)
  | agreed (c : Capabilities)
  | secured (c : Capabilities)
  | challenged (c : Capabilities) (x : Exchange)
  | proven (c : Capabilities)
  | opened (c : Capabilities)

inductive Next where
  | use (u : Use)
  | stop (e : Failure)
  | done

def loginTag (t : UInt64) (secured : Bool) : UInt64 := if secured then t + 3 else t + 1

def authenticate : String := "AUTHENTICATE " ++ Exchange.mechanism

/-- The login begins as the capabilities have it. -/
def login (a : Account) (t : UInt64) (c : Capabilities) : Next :=
  if c.has Op.digestOffer then
    match a.credentials with
    | .ok _ => .use (.command (t + 1) authenticate false)
    | .error e => .stop e
  else
    match a.phrase with
    | .ok q => .use (.command (t + 1) q true)
    | .error e => .stop e

/-- The next step of the client, whose last tag was `t` when it began. -/
def due (a : Account) (t : UInt64) : Stage → Next
  | .dialled => .use .greeting
  | .greeted => .use (.command (t + 1) Capabilities.word false)
  | .known c secured =>
    if c.has Op.startTls && !secured then .use (.command (t + 2) Op.startTls false)
    else login a (loginTag t secured) c
  | .agreed _ => .use .secure
  | .secured _ => .use (.command (t + 3) Capabilities.word false)
  | .challenged _ x => .use (.line (Exchange.encode x.answer) Op.redacted)
  | .proven _ => .use (.line "" "")
  | .opened _ => .done

/-- What the client makes of an answer. -/
def accept (a : Account) : Stage → List Response → Except Failure Stage
  | .dialled, rs =>
    match rs.getLast? with
    | some r =>
      if r.isUntagged && r.isOk then .ok .greeted else .error (.breach (.greeting r.shown))
    | none => .error .lost
  | .greeted, rs => .ok (.known (.ofResponses rs a.disabled) false)
  | .known c secured, rs =>
    if c.has Op.startTls && !secured then .ok (.agreed c)
    else if c.has Op.digestOffer then do
      let (username, password) ← a.credentials
      return .challenged c (← Op.challenged a username password rs)
    else .ok (.opened c)
  | .agreed c, _ => .ok (.secured c)
  | .secured _, rs => .ok (.known (.ofResponses rs a.disabled) true)
  | .challenged c x, rs => (Op.verified x rs).map fun _ => .proven c
  | .proven c, rs =>
    if rs.getLast?.any Response.isCompletion then .ok (.opened c) else .error (.breach .unfinished)
  | .opened c, _ => .ok (.opened c)

/-- The stage after a turn. Without an answer there is none. -/
def judge (a : Account) (σ : Stage) (turn : Turn) : Except Failure Stage :=
  turn.answer >>= accept a σ

theorem judge_ok {a : Account} {σ : Stage} {turn : Turn} {rs : List Response}
    (answer : turn.answer = .ok rs) : judge a σ turn = accept a σ rs := by
  rw [judge, answer]
  rfl

theorem judge_error {a : Account} {σ : Stage} {turn : Turn} {e : Failure}
    (answer : turn.answer = .error e) : judge a σ turn = .error e := by
  rw [judge, answer]
  rfl

inductive Follows (a : Account) (t : UInt64) : List Turn → Stage → Prop
  | start : Follows a t [] .dialled
  | turn {turns : List Turn} {σ σ' : Stage} (before : Follows a t turns σ) (turn : Turn)
      (next : due a t σ = .use turn.use) (judged : judge a σ turn = .ok σ') :
      Follows a t (turns ++ [turn]) σ'

inductive Breaks (a : Account) (t : UInt64) : List Turn → Stage → Failure → Prop
  | stopped {turns : List Turn} {σ : Stage} {e : Failure} (before : Follows a t turns σ)
      (next : due a t σ = .stop e) : Breaks a t turns σ e
  | turn {turns : List Turn} {σ : Stage} {e : Failure} (before : Follows a t turns σ)
      (turn : Turn) (next : due a t σ = .use turn.use) (judged : judge a σ turn = .error e) :
      Breaks a t (turns ++ [turn]) σ e

def Stage.Offers (c : Capabilities) : Stage → Prop
  | .dialled => True
  | .greeted => True
  | .known c' _ => c = c'
  | .agreed c' => c = c'
  | .secured c' => c = c'
  | .challenged c' _ => c = c'
  | .proven c' => c = c'
  | .opened c' => c = c'

/-- The client logs in at this stage: encryption is settled, or the login has begun. -/
def Stage.logsIn : Stage → Bool
  | .known c isSecured => !(c.has Op.startTls && !isSecured)
  | .challenged _ _ => true
  | .proven _ => true
  | _ => false

/-- The last tag drawn before a stage is this, as long as more tags are to come. -/
def Stage.Drawn (t n : UInt64) : Stage → Prop
  | .dialled => n = t
  | .greeted => n = t
  | .known _ isSecured => n = loginTag t isSecured
  | .agreed _ => n = t + 2
  | .secured _ => n = t + 2
  | .challenged _ _ => True
  | .proven _ => True
  | .opened _ => True

inductive Due (a : Account) (t : UInt64) : Stage → Use → Prop
  | greeting : Due a t .dialled .greeting
  | offer : Due a t .greeted (.command (t + 1) Capabilities.word false)
  | agree (c : Capabilities) (offered : c.has Op.startTls) :
      Due a t (.known c false) (.command (t + 2) Op.startTls false)
  | secure (c : Capabilities) : Due a t (.agreed c) .secure
  | offerAgain (c : Capabilities) :
      Due a t (.secured c) (.command (t + 3) Capabilities.word false)
  | login (c : Capabilities) (isSecured : Bool) (q : String)
      (settled : (c.has Op.startTls && !isSecured) = false) (plain : c.has Op.digestOffer = false)
      (built : a.phrase = .ok q) :
      Due a t (.known c isSecured) (.command (loginTag t isSecured + 1) q true)
  | challenge (c : Capabilities) (isSecured : Bool) (username password : String)
      (settled : (c.has Op.startTls && !isSecured) = false) (offered : c.has Op.digestOffer)
      (given : a.credentials = .ok (username, password)) :
      Due a t (.known c isSecured) (.command (loginTag t isSecured + 1) authenticate false)
  | prove (c : Capabilities) (x : Exchange) :
      Due a t (.challenged c x) (.line (Exchange.encode x.answer) Op.redacted)
  | complete (c : Capabilities) : Due a t (.proven c) (.line "" "")

theorem due_cases {a : Account} {t : UInt64} {σ : Stage} {u : Use} (next : due a t σ = .use u) :
    Due a t σ u := by
  cases σ with
  | known c isSecured =>
    by_cases pending : (c.has Op.startTls && !isSecured) = true
    · obtain ⟨offered, rfl⟩ : c.has Op.startTls = true ∧ isSecured = false := by simpa using pending
      simp only [due, if_pos pending, Next.use.injEq] at next
      exact next ▸ .agree c offered
    · have settled : (c.has Op.startTls && !isSecured) = false := by simpa using pending
      simp only [due, if_neg pending, login] at next
      by_cases offered : c.has Op.digestOffer = true
      · rw [if_pos offered] at next
        cases given : a.credentials with
        | error e => simp [given] at next
        | ok pair =>
          simp only [given, Next.use.injEq] at next
          exact next ▸ .challenge c isSecured pair.1 pair.2 settled offered given
      · rw [if_neg offered] at next
        cases built : a.phrase with
        | error e => simp [built] at next
        | ok q =>
          simp only [built, Next.use.injEq] at next
          exact next ▸ .login c isSecured q settled (by simpa using offered) built
  | dialled => exact Next.use.inj next ▸ .greeting
  | greeted => exact Next.use.inj next ▸ .offer
  | agreed c => exact Next.use.inj next ▸ .secure c
  | secured c => exact Next.use.inj next ▸ .offerAgain c
  | challenged c x => exact Next.use.inj next ▸ .prove c x
  | proven c => exact Next.use.inj next ▸ .complete c
  | opened c => cases next

/-- What takes the client from one stage to the next: a use, and an answer that does. -/
inductive Step (a : Account) (t : UInt64) (rs : List Response) : Stage → Use → Stage → Prop
  | greeting : Step a t rs .dialled .greeting .greeted
  | offer : Step a t rs .greeted (.command (t + 1) Capabilities.word false)
      (.known (.ofResponses rs a.disabled) false)
  | agree (c : Capabilities) (offered : c.has Op.startTls) :
      Step a t rs (.known c false) (.command (t + 2) Op.startTls false) (.agreed c)
  | secure (c : Capabilities) : Step a t rs (.agreed c) .secure (.secured c)
  | offerAgain (c : Capabilities) :
      Step a t rs (.secured c) (.command (t + 3) Capabilities.word false)
        (.known (.ofResponses rs a.disabled) true)
  | login (c : Capabilities) (isSecured : Bool) (q : String)
      (settled : (c.has Op.startTls && !isSecured) = false) (plain : c.has Op.digestOffer = false)
      (built : a.phrase = .ok q) :
      Step a t rs (.known c isSecured) (.command (loginTag t isSecured + 1) q true) (.opened c)
  | challenge (c : Capabilities) (isSecured : Bool) (username password : String) (x : Exchange)
      (settled : (c.has Op.startTls && !isSecured) = false) (offered : c.has Op.digestOffer)
      (given : a.credentials = .ok (username, password))
      (taken : Op.challenged a username password rs = .ok x) :
      Step a t rs (.known c isSecured) (.command (loginTag t isSecured + 1) authenticate false)
        (.challenged c x)
  | prove (c : Capabilities) (x : Exchange) (checked : Op.verified x rs = .ok ()) :
      Step a t rs (.challenged c x) (.line (Exchange.encode x.answer) Op.redacted) (.proven c)
  | complete (c : Capabilities) (done : rs.getLast?.any Response.isCompletion) :
      Step a t rs (.proven c) (.line "" "") (.opened c)

theorem step_of_accept {a : Account} {t : UInt64} {rs : List Response} {σ σ' : Stage} {u : Use}
    (h : Due a t σ u) (accepted : accept a σ rs = .ok σ') : Step a t rs σ u σ' := by
  cases h with
  | greeting =>
    simp only [accept] at accepted
    split at accepted
    · split at accepted
      · cases accepted
        exact .greeting
      · cases accepted
    · cases accepted
  | offer =>
    cases accepted
    exact .offer
  | agree c offered =>
    simp only [accept, offered, Bool.not_false, Bool.and_self, if_true, Except.ok.injEq] at accepted
    exact accepted ▸ .agree c offered
  | secure c =>
    cases accepted
    exact .secure c
  | offerAgain c =>
    cases accepted
    exact .offerAgain c
  | login c isSecured q settled plain built =>
    simp only [accept, settled, plain, Bool.false_eq_true, if_false, Except.ok.injEq] at accepted
    exact accepted ▸ .login c isSecured q settled plain built
  | challenge c isSecured username password settled offered given =>
    simp only [accept, settled, Bool.false_eq_true, if_false, if_pos offered, given, bind,
      Except.bind] at accepted
    cases taken : Op.challenged a username password rs with
    | error e => simp [taken] at accepted
    | ok x =>
      simp only [taken, pure, Except.pure, Except.ok.injEq] at accepted
      exact accepted ▸ .challenge c isSecured username password x settled offered given taken
  | prove c x =>
    cases checked : Op.verified x rs with
    | error e => simp [accept, checked, Except.map] at accepted
    | ok =>
      simp only [accept, checked, Except.map, Except.ok.injEq] at accepted
      exact accepted ▸ .prove c x checked
  | complete c =>
    by_cases done : rs.getLast?.any Response.isCompletion = true
    · simp only [accept, if_pos done, Except.ok.injEq] at accepted
      exact accepted ▸ .complete c done
    · simp only [accept, if_neg done] at accepted
      cases accepted

/-- A turn that goes on to another stage was answered, and is one of the steps. -/
theorem step_of_judge {a : Account} {t : UInt64} {σ σ' : Stage} {turn : Turn}
    (next : due a t σ = .use turn.use) (judged : judge a σ turn = .ok σ') :
    ∃ rs u, turn.answer = .ok rs ∧ turn.use = u ∧ Step a t rs σ u σ' := by
  cases answer : turn.answer with
  | error e => simp [judge_error answer] at judged
  | ok rs =>
    rw [judge_ok answer] at judged
    exact ⟨rs, turn.use, rfl, rfl, step_of_accept (due_cases next) judged⟩

/-- Every turn of a run was answered. -/
theorem Follows.answered {a : Account} {t : UInt64} {turns : List Turn} {σ : Stage}
    (h : Follows a t turns σ) : ∀ turn ∈ turns, ∃ rs, turn.answer = .ok rs := by
  induction h with
  | start => simp
  | turn before turn next judged ih =>
    obtain ⟨rs, -, answer, -⟩ := step_of_judge next judged
    exact List.forall_mem_append.2 ⟨ih, List.forall_mem_singleton.2 ⟨rs, answer⟩⟩

end Opening

end ImapSession
