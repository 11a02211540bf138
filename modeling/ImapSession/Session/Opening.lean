import ImapSession.Login.Digest
import ImapSession.Session.Commands

/-!
Opening a session: greeting, capabilities, encryption where the server offers
it, and login. Encryption comes before anything secret, and the capabilities are
asked for again once it is in force. The digest login is taken wherever it is
offered; the plain one only where it is not.
-/
namespace ImapSession.Op

def startTls : String := "STARTTLS"

def digestOffer : String := Capabilities.mechanismMark ++ Exchange.mechanism

def hangUp : Op Unit := fun s =>
  match s.session.link with
  | some l => record l.owner .close { s with session := { s.session with link := none } }
  | none => .ok () s

/-- Go back to where a session starts, still bound to its account. -/
def release : Op Unit := do
  hangUp
  setSession fun s => { s with framer := none, phase := .closed }

def close : Op Unit := do
  release
  setSession fun s => { s with account := none, loginPhrase := none, capabilities := .empty }

/-- Get a link from the account and establish it. One that cannot be established
is not kept. -/
def dial : Op Unit := do
  let k ← account
  let (l, w) := (← world).dial k
  setWorld fun _ => w
  record k .dial
  record k .establish
  let l ← settle (l.establish.mapError .link)
  setSession fun s => { s with link := some l, framer := some .empty }

/-- The server opens with an untagged OK. -/
def greet : Op Unit := do
  let r ← read
  if r.isUntagged && r.isOk then setPhase .greeted
  else
    report .serverError
    throw (.breach (.greeting r.shown))

def bound : Op Account := do
  let w ← world
  return w.accounts (← account)

/-- Ask for the capabilities. They replace those known before. -/
def discover : Op Unit := do
  let rs ← run Capabilities.word false
  let a ← bound
  setSession fun s =>
    { s with capabilities := .ofResponses rs a.disabled, phase := .capabilitiesKnown }

def upgraded : Link.UpgradeResult → Except Failure Unit
  | .secured => .ok ()
  | .failed f => .error (.link f)
  | .broken => .error .handshake

def secureLink : Op Unit := do
  let l ← link
  if l.isOpen then record l.owner .secure
  let (result, l) := l.secure
  setSession fun s => { s with link := some l }
  settle (upgraded result)

/-- Encrypt the link if the server offers it. Nothing read before counts after. -/
def encrypt : Op Unit := do
  if (← session).capabilities.has startTls then
    setPhase .securing
    let _ ← run startTls false
    secureLink
    setSession fun s => { s with framer := some .empty }
    discover

def oneLine (s : String) : Except Failure String :=
  match Quoted.lineEnd? s with
  | some c => .error (.character c)
  | none => .ok s

def phrase (username password : String) : Except Failure String := do
  let username ← oneLine username
  let password ← oneLine password
  return "LOGIN " ++ username ++ " " ++ Quoted.encode password

def newPhrase : Op String := do
  let a ← bound
  let (username, password) ← settle a.credentials
  let command ← settle (phrase username password)
  setSession fun s => { s with loginPhrase := some command }
  pure command

/-- The login command. It is built once for each binding and then kept. -/
def loginPhrase : Op String := fun s =>
  match s.session.loginPhrase with
  | some command => .ok command s
  | none => newPhrase s

def plainLogin : Op Unit := do
  let command ← loginPhrase
  let _ ← run command true

/-- The text in the request to continue that ends an answer. -/
def payload (rs : List Response) : Except Failure String :=
  match rs.getLast? with
  | some r =>
    if r.isContinuation then (Exchange.decode (r.valueAt 0)).mapError .denied
    else .error (.breach (.noContinuation r.shown))
  | none => .error (.breach (.noContinuation ""))

def challenged (a : Account) (username password : String) (rs : List Response) :
    Except Failure Exchange := do
  let challenge ← payload rs
  (Exchange.ofChallenge username password a.host challenge a.nonce).mapError .denied

def verified (x : Exchange) (rs : List Response) : Except Failure Unit := do
  let reply ← payload rs
  (x.verify reply).mapError .denied

def digestLogin : Op Unit := do
  let a ← bound
  let (username, password) ← settle a.credentials
  record (← account) .nonce
  let rs ← run ("AUTHENTICATE " ++ Exchange.mechanism) false
  let x ← settle (challenged a username password rs)
  let rs ← resume (Exchange.encode x.answer) true
  settle (verified x rs)
  let rs ← resume "" false
  if rs.getLast?.any Response.isCompletion then pure () else throw (.breach .unfinished)

/-- Log in. A refusal that concerns the credentials becomes a denial. -/
def authenticate : Op Unit := do
  let offered := (← session).capabilities.has digestOffer
  match ← attempt (if offered then digestLogin else plainLogin) with
  | .ok () => pure ()
  | .error (.refused r) =>
    if r.ofCredentials then
      report .badConfiguration
      throw (.denied (.refused r))
    else throw (.refused r)
  | .error .noCredentials =>
    report .badConfiguration
    throw .noCredentials
  | .error e => throw e

def establish : Op Unit := do
  setPhase .connecting
  dial
  greet
  discover
  encrypt
  setPhase .authenticating
  authenticate

def isReady (s : Session) : Bool := s.phase == .ready && s.isOpen

/-- One attempt to open a session that has no link. -/
def attemptOpening : Op Unit := do
  let result ← attempt establish
  discard
  match result with
  | .ok () => setPhase .ready
  | .error e =>
    setPhase .failed
    if e.isOfLink then
      match e.health? with
      | some h => report h
      | none => pure ()
    throw e

/-- Have the session ready: nothing is done if it is, otherwise whatever link it
has is released and a new one opened. -/
def connect : Op Unit := do
  if isReady (← session) then pure ()
  else
    if (← session).link.isSome then release
    let _ ← account
    attemptOpening

def send (command : String) (sensitive : Bool) : Op String := do
  connect
  sendTagged command sensitive

def execute (command : String) (sensitive : Bool) : Op (List Response) := do
  let _ ← send command sensitive
  collect

end ImapSession.Op
