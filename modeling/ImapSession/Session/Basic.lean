import ImapSession.Capabilities
import ImapSession.Framer
import ImapSession.World

/-!
A session: one client's side of one connection, from unbound to ready. It is
bound to an account by number and owns its link and its framer, which exist
together or not at all. An operation works on the session and the world it
stands in; where it fails, what it did up to then stays done.
-/
namespace ImapSession

/-- How far a session has come. -/
inductive Phase where
  | closed
  | connecting
  | greeted
  | capabilitiesKnown
  | securing
  | authenticating
  | ready
  | failed
  deriving DecidableEq, Repr

def Phase.shown : Phase → String
  | .closed => "Closed"
  | .connecting => "Connecting"
  | .greeted => "Greeted"
  | .capabilitiesKnown => "CapabilitiesKnown"
  | .securing => "TlsUpgrading"
  | .authenticating => "Authenticating"
  | .ready => "Ready"
  | .failed => "Failed"

structure Session where
  account : Option Nat
  link : Option Link
  framer : Option Framer
  capabilities : Capabilities
  counter : Nat
  loginPhrase : Option String
  phase : Phase
  deriving DecidableEq, Repr

/-- A session in its world. -/
structure Scene where
  session : Session
  world : World

abbrev Op := EStateM Failure Scene

namespace Session

def bound (w : World) (account : Nat) : Session where
  account := some account
  link := none
  framer := none
  capabilities := .empty
  counter := (w.accounts account).counter
  loginPhrase := none
  phase := .closed

def isOpen (s : Session) : Bool := s.link.any (·.isOpen)

def lastTag (s : Session) (w : World) : UInt64 := w.tags s.counter

/-- Bind to an account. What was derived from the one before it is forgotten. -/
def bind (s : Session) (w : World) (account : Nat) : Session :=
  { s with account := some account, counter := (w.accounts account).counter, loginPhrase := none }

/-- The link goes down without the session's doing. -/
def sever (s : Session) : Session := { s with link := s.link.map Link.sever }

def shown (s : Session) (w : World) : String :=
  "Connection \x7b state: " ++ s.phase.shown ++ ", open: " ++ toString s.isOpen ++
    ", capabilities: Capabilities(" ++ Inspect.ofTexts s.capabilities.sorted ++
    "), last_tag: " ++ toString (s.lastTag w).toNat ++ " \x7d"

end Session

namespace Op

def session : Op Session := fun s => .ok s.session s

def world : Op World := fun s => .ok s.world s

def setSession (f : Session → Session) : Op Unit := fun s =>
  .ok () { s with session := f s.session }

def setWorld (f : World → World) : Op Unit := fun s => .ok () { s with world := f s.world }

def setPhase (p : Phase) : Op Unit := setSession fun s => { s with phase := p }

def record (account : Nat) (act : Act) : Op Unit := setWorld fun w => w.record account act

/-- What the session holds, or else the failure that it is not there. -/
def demand (part : Session → Option α) (e : Failure) : Op α := fun s =>
  match part s.session with
  | some a => .ok a s
  | none => .error e s

def account : Op Nat := demand (·.account) .unbound

def link : Op Link := demand (·.link) .lost

def framer : Op Framer := demand (·.framer) .lost

/-- Report the health of the link to the account, if the session is bound to one. -/
def report (h : Health) : Op Unit := fun s =>
  match s.session.account with
  | some k => record k (.report h) s
  | none => .ok () s

/-- Take over an outcome as one's own. -/
def settle (outcome : Except Failure α) : Op α := fun s =>
  match outcome with
  | .ok a => .ok a s
  | .error e => .error e s

/-- Run an operation and give its outcome, keeping what it did either way. -/
def attempt (op : Op α) : Op (Except Failure α) := fun s =>
  match op s with
  | .ok a s => .ok (.ok a) s
  | .error e s => .ok (.error e) s

end Op

end ImapSession
