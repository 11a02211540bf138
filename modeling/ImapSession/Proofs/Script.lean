import ImapSession.Proofs.Reached

/-!
What an opening may send, in which order. Up to the login there are two scripts,
one with encryption and one without, and which of them is followed depends on the
first answer about capabilities alone. However the server behaves, what is sent is
the beginning of one script, and no use of the link is made before the one ahead of
it was answered.
-/
namespace ImapSession.Opening

variable {a : Account} {t : UInt64} {turns : List Turn} {σ : Stage}

def upToLogin (t : UInt64) (encrypted : Bool) : List Use :=
  [.greeting, .command (t + 1) Capabilities.word false] ++
    if encrypted then
      [.command (t + 2) Op.startTls false, .secure, .command (t + 3) Capabilities.word false]
    else []

/-- What a login sends, the last tag before it being `n`. -/
inductive Login (a : Account) (n : UInt64) : List Use → Prop
  | plain (q : String) (h : a.phrase = .ok q) : Login a n [.command (n + 1) q true]
  | digest (x : Exchange) : Login a n [.command (n + 1) authenticate false,
      .line (Exchange.encode x.answer) Op.redacted, .line "" ""]

def firstOffer (a : Account) (turns : List Turn) : Option Capabilities :=
  turns[1]?.bind fun q => q.answer.toOption.map fun rs => .ofResponses rs a.disabled

def offersTls (a : Account) (turns : List Turn) : Bool :=
  (firstOffer a turns).any fun c => c.has Op.startTls

def Sent (a : Account) (t : UInt64) (turns : List Turn) : Stage → Prop
  | .dialled => turns.map Turn.use = []
  | .greeted => turns.map Turn.use = [.greeting]
  | .known c isSecured => turns.map Turn.use = upToLogin t isSecured ∧
      offersTls a turns = (isSecured || c.has Op.startTls)
  | .agreed _ => turns.map Turn.use = (upToLogin t true).take 3 ∧ offersTls a turns = true
  | .secured _ => turns.map Turn.use = (upToLogin t true).take 4 ∧ offersTls a turns = true
  | .challenged _ _ => ∃ isSecured, turns.map Turn.use = upToLogin t isSecured ++
      [.command (loginTag t isSecured + 1) authenticate false] ∧ offersTls a turns = isSecured
  | .proven _ => ∃ isSecured, ∃ x : Exchange, turns.map Turn.use = upToLogin t isSecured ++
      [.command (loginTag t isSecured + 1) authenticate false,
        .line (Exchange.encode x.answer) Op.redacted] ∧ offersTls a turns = isSecured
  | .opened _ => ∃ isSecured login, turns.map Turn.use = upToLogin t isSecured ++ login ∧
      Login a (loginTag t isSecured) login ∧ offersTls a turns = isSecured

theorem length_of_sent {uses : List Use} (h : turns.map Turn.use = uses) :
    turns.length = uses.length := by
  rw [← h, List.length_map]

theorem offersTls_append (turn : Turn) {u v : Use} {uses : List Use}
    (h : turns.map Turn.use = u :: v :: uses) :
    offersTls a (turns ++ [turn]) = offersTls a turns := by
  have two : 2 ≤ turns.length := by simp [length_of_sent h]
  rw [offersTls, offersTls, firstOffer, firstOffer, List.getElem?_append_left (by omega)]

theorem uses_append {uses : List Use} {turn : Turn} {u : Use} (h : turns.map Turn.use = uses)
    (used : turn.use = u) : (turns ++ [turn]).map Turn.use = uses ++ [u] := by
  rw [List.map_append, h, List.map_singleton, used]

/-- What is known to be settled was offered no encryption, or has it. -/
theorem offers_settled {c : Capabilities} {isSecured : Bool}
    (settled : (c.has Op.startTls && !isSecured) = false) :
    (isSecured || c.has Op.startTls) = isSecured := by
  cases isSecured <;> simp_all

/-- Each step sends what is due, and leaves the first offer as it is. -/
theorem sent_step {σ' : Stage} {turn : Turn} {rs : List Response} {u : Use} (h : Sent a t turns σ)
    (answer : turn.answer = .ok rs) (used : turn.use = u) (step : Step a t rs σ u σ') :
    Sent a t (turns ++ [turn]) σ' := by
  cases step with
  | greeting => exact uses_append h used
  | offer =>
    have one : turns.length = 1 := length_of_sent h
    have offer : offersTls a (turns ++ [turn]) =
        (Capabilities.ofResponses rs a.disabled).has Op.startTls := by
      simp [offersTls, firstOffer, one, answer, Except.toOption]
    exact ⟨uses_append h used, by simpa using offer⟩
  | agree c offered =>
    obtain ⟨uses, offers⟩ := h
    refine ⟨uses_append uses used, ?_⟩
    rw [offersTls_append turn uses, offers, offered]
    rfl
  | secure c =>
    obtain ⟨uses, offers⟩ := h
    exact ⟨uses_append uses used, by rw [offersTls_append turn uses, offers]⟩
  | offerAgain c =>
    obtain ⟨uses, offers⟩ := h
    refine ⟨uses_append uses used, ?_⟩
    rw [offersTls_append turn uses, offers]
    rfl
  | login c isSecured q settled plain built =>
    obtain ⟨uses, offers⟩ := h
    refine ⟨isSecured, _, uses_append uses used, .plain q built, ?_⟩
    rw [offersTls_append turn uses, offers, offers_settled settled]
  | challenge c isSecured username password x settled offered given taken =>
    obtain ⟨uses, offers⟩ := h
    refine ⟨isSecured, uses_append uses used, ?_⟩
    rw [offersTls_append turn uses, offers, offers_settled settled]
  | prove c x checked =>
    obtain ⟨isSecured, uses, offers⟩ := h
    refine ⟨isSecured, x, ?_, by rw [offersTls_append turn uses, offers]⟩
    rw [uses_append uses used, List.append_assoc]
    rfl
  | complete c done =>
    obtain ⟨isSecured, x, uses, offers⟩ := h
    refine ⟨isSecured, _, ?_, .digest x, by rw [offersTls_append turn uses, offers]⟩
    rw [uses_append uses used, List.append_assoc]
    rfl

/-- At every stage of a run, what was sent is what the script has up to there. -/
theorem sent_run (h : Follows a t turns σ) : Sent a t turns σ := by
  induction h with
  | start => rfl
  | turn before turn next judged ih =>
    obtain ⟨rs, u, answer, used, step⟩ := step_of_judge next judged
    exact sent_step ih answer used step

def script (t : UInt64) (encrypted : Bool) (login : List Use) : List Use :=
  upToLogin t encrypted ++ login

/-- These turns send the beginning of a script, the one that the first offer calls for. -/
def Scripted (a : Account) (t : UInt64) (turns : List Turn) : Prop :=
  ∃ login, Login a (loginTag t (offersTls a turns)) login ∧
    turns.map Turn.use <+: script t (offersTls a turns) login

/-- These turns send a whole script, the one that the first offer calls for. -/
def ScriptedWhole (a : Account) (t : UInt64) (turns : List Turn) : Prop :=
  ∃ login, Login a (loginTag t (offersTls a turns)) login ∧
    turns.map Turn.use = script t (offersTls a turns) login

theorem scriptedWhole_of_follows {c : Capabilities} (h : Follows a t turns (.opened c)) :
    ScriptedWhole a t turns := by
  obtain ⟨isSecured, login, uses, ends, offers⟩ := sent_run h
  exact ⟨login, offers ▸ ends, by rw [uses, offers, script]⟩

/-- Some login there always is, whatever the credentials. -/
theorem login_exists (a : Account) (n : UInt64) : ∃ login, Login a n login :=
  ⟨_, .digest ⟨"", "", "", "", "", ""⟩⟩

theorem scripted_of_uses {encrypted : Bool} {login : List Use} (offers : offersTls a turns = encrypted)
    (ends : Login a (loginTag t encrypted) login)
    (uses : turns.map Turn.use <+: script t encrypted login) : Scripted a t turns :=
  ⟨login, offers ▸ ends, offers ▸ uses⟩

/-- What comes before the login is in the script, whatever login is to follow. -/
theorem scripted_of_front {encrypted : Bool} (offers : offersTls a turns = encrypted)
    (uses : turns.map Turn.use <+: upToLogin t encrypted) : Scripted a t turns := by
  obtain ⟨login, ends⟩ := login_exists a (loginTag t encrypted)
  exact scripted_of_uses offers ends (uses.trans (List.prefix_append _ _))

/-- A run that can go no further stopped within its script. -/
theorem scripted_stopped {e : Failure} (h : Follows a t turns σ) (next : due a t σ = .stop e) :
    Scripted a t turns := by
  cases σ with
  | known c isSecured =>
    obtain ⟨uses, offers⟩ := sent_run h
    by_cases pending : (c.has Op.startTls && !isSecured) = true
    · simp [due, pending] at next
    · rw [offers_settled (by simpa using pending)] at offers
      exact scripted_of_front offers (uses ▸ List.prefix_refl _)
  | _ => simp [due] at next

/-- The turn that is due at a stage goes on with the script. -/
theorem scripted_due {turn : Turn} {u : Use} (h : Follows a t turns σ) (next : Due a t σ u)
    (used : turn.use = u) : Scripted a t (turns ++ [turn]) := by
  have sent := sent_run h
  cases next with
  | greeting =>
    refine scripted_of_front rfl ?_
    rw [uses_append sent used]
    simp [upToLogin]
  | offer =>
    refine scripted_of_front rfl ?_
    rw [uses_append sent used]
    simp [upToLogin]
  | agree c offered =>
    obtain ⟨uses, offers⟩ := sent
    rw [← offersTls_append turn uses, offered] at offers
    refine scripted_of_front offers ?_
    rw [uses_append uses used]
    simp [upToLogin]
  | secure c =>
    obtain ⟨uses, offers⟩ := sent
    refine scripted_of_front (offersTls_append turn uses ▸ offers) ?_
    rw [uses_append uses used]
    simp [upToLogin]
  | offerAgain c =>
    obtain ⟨uses, offers⟩ := sent
    refine scripted_of_front (offersTls_append turn uses ▸ offers) ?_
    rw [uses_append uses used]
    simp [upToLogin]
  | login c isSecured q settled plain built =>
    obtain ⟨uses, offers⟩ := sent
    rw [← offersTls_append turn uses, offers_settled settled] at offers
    refine scripted_of_uses offers (.plain q built) ?_
    rw [uses_append uses used, script]
  | challenge c isSecured username password settled offered given =>
    obtain ⟨uses, offers⟩ := sent
    rw [← offersTls_append turn uses, offers_settled settled] at offers
    refine scripted_of_uses offers (.digest ⟨"", "", "", "", "", ""⟩) ?_
    rw [uses_append uses used]
    simp [script]
  | prove c x =>
    obtain ⟨isSecured, uses, offers⟩ := sent
    refine scripted_of_uses (offersTls_append turn uses ▸ offers) (.digest x) ?_
    rw [uses_append uses used]
    simp [script]
  | complete c =>
    obtain ⟨isSecured, x, uses, offers⟩ := sent
    refine scripted_of_uses (offersTls_append turn uses ▸ offers) (.digest x) ?_
    rw [uses_append uses used]
    simp [script]

def scriptActs (t : UInt64) (encrypted : Bool) (login : List Use) : List Act :=
  .establish :: (script t encrypted login).flatMap Use.acts

def Answered (turn : Turn) : Prop := ∃ rs, turn.answer = .ok rs

/-- Where encryption is on offer, a login is begun only after the link was encrypted
and the capabilities were asked for again. -/
def Guarded (a : Account) (t : UInt64) (turns : List Turn) : Prop :=
  offersTls a turns → 5 < turns.length →
    ∃ q r, turns[3]? = some q ∧ q.use = .secure ∧ Answered q ∧
      turns[4]? = some r ∧ r.use = .command (t + 3) Capabilities.word false ∧ Answered r

theorem guarded_of_scripted (h : Scripted a t turns)
    (answered : ∀ turn ∈ turns.dropLast, Answered turn) : Guarded a t turns := by
  intro offers long
  obtain ⟨login, -, uses⟩ := h
  rw [offers] at uses
  obtain ⟨rest, whole⟩ := uses
  have placed : ∀ i : Nat, i < 5 → ∃ q, turns[i]? = some q ∧ Answered q ∧
      (upToLogin t true)[i]? = some q.use := by
    intro i hi
    have hturn : turns[i]? = some turns[i] := List.getElem?_eq_getElem (by omega)
    have hmem : turns[i] ∈ turns.dropLast := by
      rw [← List.getElem_dropLast (by simp; omega)]
      exact List.getElem_mem _
    refine ⟨turns[i], hturn, answered _ hmem, ?_⟩
    have five : (upToLogin t true).length = 5 := rfl
    have inScript : (script t true login)[i]? = (upToLogin t true)[i]? := by
      rw [script, List.getElem?_append_left (by omega)]
    rw [← inScript, ← whole, List.getElem?_append_left (by simp; omega), List.getElem?_map, hturn]
    rfl
  obtain ⟨q, hq, hqa, hqu⟩ := placed 3 (by omega)
  obtain ⟨r, hr, hra, hru⟩ := placed 4 (by omega)
  simp only [upToLogin] at hqu hru
  exact ⟨q, r, hq, by simpa using hqu.symm, hqa, hr, by simpa using hru.symm, hra⟩

/-- A run that broke off sent the beginning of a script, and all but its last turn
were answered. -/
theorem scripted_of_breaks {e : Failure} (h : Breaks a t turns σ e) :
    Scripted a t turns ∧ ∀ turn ∈ turns.dropLast, Answered turn := by
  cases h with
  | stopped follows next =>
    refine ⟨scripted_stopped follows next, fun turn hm => ?_⟩
    exact follows.answered turn (List.mem_of_mem_dropLast hm)
  | turn follows turn next judged =>
    refine ⟨scripted_due follows (due_cases next) rfl, fun q hm => ?_⟩
    rw [List.dropLast_concat] at hm
    exact follows.answered q hm

theorem scripted_of_stuck {s : Scene} (h : Stuck a t turns s) :
    Scripted a t turns ∧ ∀ turn ∈ turns.dropLast, Answered turn := by
  rcases h with rfl | ⟨σ, e, breaks, -⟩
  · exact ⟨scripted_of_front rfl List.nil_prefix, by simp⟩
  · exact scripted_of_breaks breaks

/-- However the server behaves, what an attempt to open a session puts on the record
is the beginning of one script, and all of it if the attempt succeeds. Encryption is
in the script exactly if the first answer about capabilities offers it. -/
theorem connect_script {s : Scene} {k : Nat} (reached : Reached s)
    (bound : s.session.account = some k) (idle : Op.isReady s.session = false) :
    let a := s.world.accounts k
    let t := lastTag s
    Op.Ends Op.connect s
      (fun _ s' => ∃ turns acts login,
        Ran (newWire s k) (s.world.log ++ closing s) k turns acts s' ∧
        Login a (loginTag t (offersTls a turns)) login ∧
        turns.map Turn.use = script t (offersTls a turns) login ∧
        acts.filter Act.onLink = scriptActs t (offersTls a turns) login ∧
        (∀ turn ∈ turns, Answered turn) ∧ Guarded a t turns)
      (fun _ s' => ∃ turns acts login,
        Ran (newWire s k) (s.world.log ++ closing s) k turns acts s' ∧
        Login a (loginTag t (offersTls a turns)) login ∧
        turns.map Turn.use <+: script t (offersTls a turns) login ∧
        acts.filter Act.onLink <+: scriptActs t (offersTls a turns) login ∧
        (∀ turn ∈ turns.dropLast, Answered turn) ∧ Guarded a t turns) := by
  intro a t
  refine (connect_ends bound idle reached.phraseKept).imp ?_ ?_
  · rintro - s' ⟨-, turns, acts, follows, ran⟩
    have answered := follows.answered
    obtain ⟨login, ends, uses⟩ := scriptedWhole_of_follows follows
    obtain ⟨v, plays⟩ := ran.plays
    have scripted : Scripted a t turns := ⟨login, ends, uses ▸ List.prefix_refl _⟩
    refine ⟨turns, acts, login, ran, ends, uses, ?_, answered,
      guarded_of_scripted scripted fun q hq => answered q (List.mem_of_mem_dropLast hq)⟩
    rw [ran.noticed, Wire.noticed_uses plays.made answered, uses, scriptActs]
  · rintro - s' ⟨-, turns, acts, stuck, ran⟩
    obtain ⟨scripted, answered⟩ := scripted_of_stuck stuck
    obtain ⟨login, ends, uses⟩ := id scripted
    obtain ⟨v, plays⟩ := ran.plays
    refine ⟨turns, acts, login, ran, ends, uses, ?_, answered, guarded_of_scripted scripted answered⟩
    rw [ran.noticed, scriptActs, List.prefix_cons_inj]
    exact (Wire.noticed_prefix plays answered).trans (uses.flatMap _)

/-- A server that offers encryption and goes away when it is asked for it. -/
def greetingWithTls : String :=
  "* OK hello\r\n* CAPABILITY IMAP4rev1 STARTTLS\r\n1 OK done\r\n"

/-- A session that loses its server over the request for encryption kept to the
script with encryption, and went no further. -/
theorem connect_script_lost :
    ∃ e s', Op.connect (sampleScene greetingWithTls) = .error e s' ∧ ∃ turns acts login,
      Ran (newWire (sampleScene greetingWithTls) 0) [] 0 turns acts s' ∧
      acts.filter Act.onLink <+: scriptActs 0
        (offersTls ((sampleWorld greetingWithTls).accounts 0) turns) login ∧
      ∀ turn ∈ turns.dropLast, Answered turn := by
  have script := connect_script (k := 0) (.bound (sampleWorld greetingWithTls) 0) rfl rfl
  cases h : Op.connect (sampleScene greetingWithTls) with
  | ok a s' =>
    have : Op.succeeded (Op.connect (sampleScene greetingWithTls)) = false := by decide +kernel
    simp [h, Op.succeeded] at this
  | error e s' =>
    obtain ⟨turns, acts, login, ran, -, -, kept, answered, -⟩ := script.of_error h
    exact ⟨e, s', rfl, turns, acts, login, ran, kept, answered⟩

end ImapSession.Opening
