import ImapSession.Proofs.Completion
import ImapSession.Proofs.Splitting

/-!
The digest login proves both sides to each other. Where it is on offer the password
is never sent in the plain; and the client goes on from each of its three turns only
if the answer was a challenge it can take up, a proof that the server knows the
password too, and a completion.
-/
namespace ImapSession

/-- A line that sends user name and password as they are. -/
def IsLogin (line : String) : Prop := ∃ n rest, line = tagged n ("LOGIN " ++ rest)

/-- The digits of a tag hold no space. -/
theorem space_not_mem_tag (n : UInt64) : ' ' ∉ (toString n.toNat).toList := by
  intro h
  have digit : ' ' ∈ Nat.toDigits 10 n.toNat := by simpa [Nat.repr] using h
  have := Nat.isDigit_of_mem_toDigits (by decide) (by decide) digit
  contradiction

/-- A space parts a tag from its command, so a line is one command only. -/
theorem tagged_inj {n m : UInt64} {c d : String} (h : tagged n c = tagged m d) : c = d := by
  have lists : (toString n.toNat).toList ++ ' ' :: c.toList =
      (toString m.toNat).toList ++ ' ' :: d.toList := by
    simpa [tagged] using congrArg String.toList h
  obtain ⟨-, rest⟩ := Splitting.at_first (space_not_mem_tag n) (space_not_mem_tag m) lists
  exact String.toList_inj.1 rest

theorem not_isLogin_tagged {n : UInt64} {c : String} (h : c.toList.head? ≠ some 'L') :
    ¬ IsLogin (tagged n c) := by
  rintro ⟨m, rest, eq⟩
  rw [tagged_inj eq] at h
  simp at h

namespace Base64

theorem symbol_ne_space (v : Nat) : symbol v ≠ ' ' := by
  have upper : ∀ v < 26, Char.ofNat (0x41 + v) ≠ ' ' := by decide
  have lower : ∀ v < 26, Char.ofNat (0x61 + v) ≠ ' ' := by decide
  have digit : ∀ v < 10, Char.ofNat (0x30 + v) ≠ ' ' := by decide
  unfold symbol
  split
  · exact upper v (by assumption)
  · split
    · exact lower (v - 26) (by omega)
    · split
      · exact digit (v - 52) (by omega)
      · split <;> decide

theorem space_not_mem_symbols (bytes : List UInt8) : ' ' ∉ symbols bytes := by
  fun_induction symbols bytes with
  | case1 => simp
  | case2 => simp [Ne.symm (symbol_ne_space _)]
  | case3 => simp [Ne.symm (symbol_ne_space _)]
  | case4 x y z r n ih => simp [Ne.symm (symbol_ne_space _), ih]

end Base64

theorem not_isLogin_encode (text : String) : ¬ IsLogin (Exchange.encode text) := by
  rintro ⟨n, rest, eq⟩
  have lists := congrArg String.toList eq
  have hm : ' ' ∈ (Exchange.encode text).toList := by
    rw [lists]
    simp [tagged]
  exact Base64.space_not_mem_symbols _ (by simpa [Exchange.encode, Base64.encode] using hm)

namespace Opening

variable {a : Account} {t : UInt64} {turns : List Turn} {σ : Stage} {u : Use}

def Harmless (u : Use) : Prop := ∀ text shown, u = .line text shown → ¬ IsLogin text

theorem harmless_command {n : UInt64} {c : String} {sensitive : Bool} (h : c.toList.head? ≠ some 'L') :
    Harmless (.command n c sensitive) := by
  intro text shown eq
  simp only [Use.command, Use.line.injEq] at eq
  rw [← eq.1]
  exact not_isLogin_tagged h

theorem not_isLogin_nil : ¬ IsLogin "" := by
  rintro ⟨n, rest, eq⟩
  have := congrArg String.toList eq
  simp [tagged] at this

/-- Only where no digest login is on offer is a plain one due. -/
theorem harmless_due (h : Due a t σ u)
    (offered : ∀ c isSecured, σ = .known c isSecured →
      (c.has Op.startTls && !isSecured) = false → c.has Op.digestOffer = true) : Harmless u := by
  cases h with
  | greeting =>
    intro text shown eq
    cases eq
  | offer => exact harmless_command (by decide)
  | agree c => exact harmless_command (by decide)
  | secure c =>
    intro text shown eq
    cases eq
  | offerAgain c => exact harmless_command (by decide)
  | login c isSecured q settled plain => simp [offered c isSecured rfl settled] at plain
  | challenge c => exact harmless_command (by decide)
  | prove c x =>
    intro text shown eq
    rw [← (Use.line.inj eq).1]
    exact not_isLogin_encode x.answer
  | complete c =>
    intro text shown eq
    rw [← (Use.line.inj eq).1]
    exact not_isLogin_nil

/-- A run sends no plain login, unless it ends in one for want of a digest login. -/
theorem harmless_run (h : Follows a t turns σ) :
    (∀ turn ∈ turns, Harmless turn.use) ∨ ∃ c, σ = .opened c ∧ c.has Op.digestOffer = false := by
  induction h with
  | start => exact .inl (by simp)
  | @turn before σ σ' follows turn next judged ih =>
    obtain ⟨rs, u, answer, used, step⟩ := step_of_judge next judged
    rcases ih with harmless | ⟨c, rfl, -⟩
    · by_cases plain : ∃ c, σ' = .opened c ∧ c.has Op.digestOffer = false
      · exact .inr plain
      · have last : Harmless turn.use := by
          refine harmless_due (due_cases next) fun c isSecured hσ settled => ?_
          subst hσ
          cases step with
          | agree c offered => simp [offered] at settled
          | login c isSecured q settled unoffered => exact absurd ⟨c, rfl, unoffered⟩ plain
          | challenge c isSecured username password x settled offered => exact offered
        exact .inl (List.forall_mem_append.2 ⟨harmless, List.forall_mem_singleton.2 last⟩)
    · simp [due] at next

/-- Where the digest login is on offer, a run that broke off sent no plain login. -/
theorem harmless_broken {e : Failure} {c : Capabilities} (h : Breaks a t turns σ e)
    (offers : σ.Offers c) (offered : c.has Op.digestOffer = true) :
    ∀ turn ∈ turns, Harmless turn.use := by
  cases h with
  | stopped follows next =>
    rcases harmless_run follows with harmless | ⟨c', rfl, -⟩
    · exact harmless
    · simp [due] at next
  | turn follows turn next judged =>
    rcases harmless_run follows with harmless | ⟨c', rfl, -⟩
    · have last : Harmless turn.use := by
        refine harmless_due (due_cases next) fun c' isSecured hσ _ => ?_
        subst hσ
        obtain rfl : c = c' := offers
        exact offered
      exact List.forall_mem_append.2 ⟨harmless, List.forall_mem_singleton.2 last⟩
    · simp [due] at next

theorem command_ne_blank {n : UInt64} {c : String} {sensitive : Bool} :
    Use.command n c sensitive ≠ .line "" "" := by
  intro eq
  have := congrArg String.toList (Use.line.inj eq).1
  simp [tagged] at this

/-- The empty line is sent at one stage only. -/
theorem proven_of_blank (h : Due a t σ u) (blank : u = .line "" "") : ∃ c, σ = .proven c := by
  cases h with
  | complete c => exact ⟨c, rfl⟩
  | greeting => cases blank
  | secure c => cases blank
  | prove c x => exact absurd (Use.line.inj blank).2 (by decide)
  | _ => exact absurd blank command_ne_blank

/-- Once the empty line was answered as it should be, the session is open. -/
theorem opened_of_blank (h : Follows a t turns σ) {turn : Turn} (hm : turn ∈ turns)
    (blank : turn.use = .line "" "") : ∃ c, σ = .opened c := by
  induction h with
  | start => simp at hm
  | turn follows last next judged ih =>
    rcases List.mem_append.1 hm with hm | hm
    · obtain ⟨c, rfl⟩ := ih hm
      simp [due] at next
    · obtain rfl := List.mem_singleton.1 hm
      obtain ⟨c, rfl⟩ := proven_of_blank (due_cases next) blank
      obtain ⟨rs, u, -, -, step⟩ := step_of_judge next judged
      cases step with
      | complete c done => exact ⟨c, rfl⟩

/-- The answer ends in a request to continue that holds a text. -/
def Asks (turn : Turn) (text : String) : Prop :=
  ∃ r, last? turn = some r ∧ r.isContinuation ∧ Exchange.decode (r.valueAt 0) = .ok text

def Challenged (a : Account) (turn : Turn) (x : Exchange) : Prop :=
  ∃ username password text, a.credentials = .ok (username, password) ∧ Asks turn text ∧
    Exchange.ofChallenge username password a.host text a.nonce = .ok x

def Proved (turn : Turn) (x : Exchange) : Prop :=
  ∃ text given, Asks turn text ∧
    Directives.find? (Directives.ofText text) "rspauth" = some given ∧
    Ascii.sameName given x.serverProof

theorem asks_of_payload {turn : Turn} {rs : List Response} {text : String}
    (answer : turn.answer = .ok rs) (h : Op.payload rs = .ok text) : Asks turn text := by
  unfold Op.payload at h
  cases hr : rs.getLast? with
  | none => simp [hr] at h
  | some r =>
    have hlast : last? turn = some r := by simp [last?, answer, Except.toOption, hr]
    by_cases continuation : r.isContinuation = true
    · cases hd : Exchange.decode (r.valueAt 0) with
      | error e => simp [hr, continuation, hd, Except.mapError] at h
      | ok decoded =>
        simp only [hr, if_pos continuation, hd, Except.mapError, Except.ok.injEq] at h
        exact ⟨r, hlast, continuation, h ▸ hd⟩
    · simp [hr, continuation] at h

theorem challenged_of_taken {turn : Turn} {rs : List Response} {username password : String}
    {x : Exchange} (given : a.credentials = .ok (username, password)) (answer : turn.answer = .ok rs)
    (taken : Op.challenged a username password rs = .ok x) : Challenged a turn x := by
  unfold Op.challenged at taken
  cases hp : Op.payload rs with
  | error e => simp [hp, bind, Except.bind] at taken
  | ok text =>
    refine ⟨username, password, text, given, asks_of_payload answer hp, ?_⟩
    cases hx : Exchange.ofChallenge username password a.host text a.nonce with
    | error e => simp [hp, hx, bind, Except.bind, Except.mapError] at taken
    | ok y => simpa [hp, hx, bind, Except.bind, Except.mapError] using taken

theorem proved_of_checked {turn : Turn} {rs : List Response} {x : Exchange}
    (answer : turn.answer = .ok rs) (checked : Op.verified x rs = .ok ()) : Proved turn x := by
  unfold Op.verified at checked
  cases hp : Op.payload rs with
  | error e => simp [hp, bind, Except.bind] at checked
  | ok text =>
    simp only [hp, bind, Except.bind, Exchange.verify] at checked
    cases hf : Directives.find? (Directives.ofText text) "rspauth" with
    | none => simp [hf, Except.mapError] at checked
    | some given =>
      by_cases same : Ascii.sameName given x.serverProof = true
      · exact ⟨text, given, asks_of_payload answer hp, hf, same⟩
      · simp [hf, same, Except.mapError] at checked

/-- The turns end in the three of a digest login, of which the first two proved the
server and the client to each other. -/
def Mutual (a : Account) (turns : List Turn) : Prop :=
  ∃ front n q₁ q₂ q₃, ∃ x : Exchange, turns = front ++ [q₁, q₂, q₃] ∧
    q₁.use = .command n authenticate false ∧
    q₂.use = .line (Exchange.encode x.answer) Op.redacted ∧ q₃.use = .line "" "" ∧
    Challenged a q₁ x ∧ Proved q₂ x

/-- A client comes to send the empty line only by way of both proofs. -/
theorem mutual_of_proven {c : Capabilities} {turn : Turn} (h : Follows a t turns (.proven c))
    (blank : turn.use = .line "" "") : Mutual a (turns ++ [turn]) := by
  cases h with
  | @turn before σ _ follows q₂ next₂ judged₂ =>
    obtain ⟨rs₂, u₂, answer₂, used₂, step₂⟩ := step_of_judge next₂ judged₂
    cases step₂ with
    | prove c x checked =>
      cases follows with
      | @turn front σ _ first q₁ next₁ judged₁ =>
        obtain ⟨rs₁, u₁, answer₁, used₁, step₁⟩ := step_of_judge next₁ judged₁
        cases step₁ with
        | challenge c isSecured username password x settled offered given taken =>
          exact ⟨front, _, q₁, q₂, turn, x, by simp, used₁, used₂, blank,
            challenged_of_taken given answer₁ taken, proved_of_checked answer₂ checked⟩

/-- A line on the record was sent by one of the turns. -/
theorem written_turn {w v : Wire} {acts : List Act} (plays : w.Plays turns v)
    (noticed : acts.filter Act.onLink = .establish :: turns.flatMap Turn.noticed)
    {text shown : String} (h : .write text shown ∈ acts) :
    ∃ turn ∈ turns, turn.use = .line text shown := by
  have hm : Act.write text shown ∈ acts.filter Act.onLink :=
    List.mem_filter.2 ⟨h, rfl⟩
  rw [noticed] at hm
  obtain ⟨turn, ht, hn⟩ : ∃ turn ∈ turns, Act.write text shown ∈ turn.noticed := by
    simpa using hm
  obtain ⟨u, made⟩ := plays.made turn ht
  refine ⟨turn, ht, ?_⟩
  rw [made] at hn
  rcases Wire.noticed_turn u turn.use with full | empty
  · rw [full] at hn
    cases hu : turn.use <;> simp [Use.acts, hu] at hn ⊢
    exact ⟨hn.1.symm, hn.2.symm⟩
  · rw [empty] at hn
    simp at hn

def NoLogin (acts : List Act) : Prop := ∀ line shown, .write line shown ∈ acts → ¬ IsLogin line

theorem noLogin_of_harmless {w v : Wire} {acts : List Act} (plays : w.Plays turns v)
    (noticed : acts.filter Act.onLink = .establish :: turns.flatMap Turn.noticed)
    (harmless : ∀ turn ∈ turns, Harmless turn.use) : NoLogin acts := by
  intro line shown h
  obtain ⟨turn, hm, hu⟩ := written_turn plays noticed h
  exact harmless turn hm line shown hu

/-- A complete run with the digest login on offer went by way of both proofs. -/
theorem mutual_of_opened {c : Capabilities} (h : Follows a t turns (.opened c))
    (offered : c.has Op.digestOffer = true) : Mutual a turns := by
  cases h with
  | turn before turn next judged =>
    obtain ⟨rs, u, answer, used, step⟩ := step_of_judge next judged
    cases step with
    | login c isSecured q settled unoffered => simp [offered] at unoffered
    | complete c done => exact mutual_of_proven before used

/-- A run that broke off went by way of both proofs, if it came to send the empty line. -/
theorem mutual_of_broken {e : Failure} (h : Breaks a t turns σ e) {turn : Turn} (hm : turn ∈ turns)
    (blank : turn.use = .line "" "") : Mutual a turns := by
  cases h with
  | stopped follows next =>
    obtain ⟨c, rfl⟩ := opened_of_blank follows hm blank
    simp [due] at next
  | turn follows last next judged =>
    rcases List.mem_append.1 hm with hm | hm
    · obtain ⟨c, rfl⟩ := opened_of_blank follows hm blank
      simp [due] at next
    · obtain rfl := List.mem_singleton.1 hm
      obtain ⟨c, rfl⟩ := proven_of_blank (due_cases next) blank
      exact mutual_of_proven follows blank

/-- Where the digest login is on offer when the login begins, the password is never
sent as it is; the session opens only after the client took up a challenge, the
server proved that it knows the password, and the login was completed; and without
that proof the empty line is not sent, and the attempt fails. -/
theorem connect_mutual {s : Scene} {k : Nat} (reached : Reached s)
    (bound : s.session.account = some k) (idle : Op.isReady s.session = false) :
    let a := s.world.accounts k
    Op.Ends Op.connect s
      (fun _ s' => s'.session.capabilities.has Op.digestOffer → ∃ turns acts,
        Ran (newWire s k) (s.world.log ++ closing s) k turns acts s' ∧ NoLogin acts ∧
        Mutual a turns ∧ ∃ turn, turns.getLast? = some turn ∧ Completed turn)
      (fun _ s' => s'.session.phase = .failed ∧
        (s'.session.capabilities.has Op.digestOffer → ∃ turns acts,
          Ran (newWire s k) (s.world.log ++ closing s) k turns acts s' ∧ NoLogin acts ∧
          (.write "" "" ∈ acts → Mutual a turns))) := by
  intro a
  refine (connect_ends bound idle reached.phraseKept).imp ?_ ?_
  · rintro - s' ⟨-, turns, acts, follows, ran⟩ offered
    obtain ⟨v, plays⟩ := ran.plays
    have harmless : ∀ turn ∈ turns, Harmless turn.use := by
      rcases harmless_run follows with harmless | ⟨c, hc, unoffered⟩
      · exact harmless
      · cases hc
        simp [offered] at unoffered
    refine ⟨turns, acts, ran, noLogin_of_harmless plays ran.noticed harmless,
      mutual_of_opened follows offered, last_completed follows plays fun unoffered => ?_⟩
    simp [offered] at unoffered
  · rintro - s' ⟨failed, turns, acts, stuck, ran⟩
    refine ⟨failed, fun offered => ⟨turns, acts, ran, ?_⟩⟩
    obtain ⟨v, plays⟩ := ran.plays
    rcases stuck with rfl | ⟨σ, e, breaks, offers⟩
    · refine ⟨noLogin_of_harmless plays ran.noticed (by simp), fun blank => ?_⟩
      obtain ⟨turn, hm, -⟩ := written_turn plays ran.noticed blank
      simp at hm
    · refine ⟨noLogin_of_harmless plays ran.noticed
        (harmless_broken breaks offers offered), fun blank => ?_⟩
      obtain ⟨turn, hm, hu⟩ := written_turn plays ran.noticed blank
      exact mutual_of_broken breaks hm hu

/-- A server that offers the digest login, but lets anybody in who asks for it. -/
def lenient : String := "* OK hello\r\n* CAPABILITY IMAP4rev1 AUTH=DIGEST-MD5\r\n1 OK done\r\n2 OK in\r\n"

/-- To let anybody in is no proof to the client. -/
theorem connect_lenient : ∃ e s', Op.connect (sampleScene lenient) = .error e s' ∧
    s'.session.phase = .failed ∧ s'.session.capabilities.has Op.digestOffer ∧ ∃ turns acts,
      Ran (newWire (sampleScene lenient) 0) [] 0 turns acts s' ∧ NoLogin acts ∧
      (.write "" "" ∈ acts → Mutual ((sampleWorld lenient).accounts 0) turns) := by
  have attempt := connect_mutual (k := 0) (.bound (sampleWorld lenient) 0) rfl rfl
  have facts : (match Op.connect (sampleScene lenient) with
      | .ok _ _ => false
      | .error _ s' => s'.session.capabilities.has Op.digestOffer) = true := by decide +kernel
  cases h : Op.connect (sampleScene lenient) with
  | ok a s' => simp [h] at facts
  | error e s' =>
    rw [h] at facts
    obtain ⟨failed, offered⟩ := attempt.of_error h
    exact ⟨e, s', rfl, failed, facts, offered facts⟩

end Opening

end ImapSession
