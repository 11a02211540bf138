import ImapSession.Base64
import ImapSession.Response.Basic
import ImapSession.Stream
import ImapSession.Text.Inspect

/-!
What can go wrong in a session, one constructor for each cause, and how it is
worded. Most failures say something about the health of the link and are
reported as such; a refused command is for the caller to judge.
-/
namespace ImapSession

/-- The health of the link, as it is reported to the owner of an account. -/
inductive Health where
  | serverError
  | communicationError
  | badConfiguration
  deriving DecidableEq, Repr

def Health.shown : Health → String
  | .serverError => "server error"
  | .communicationError => "communication error"
  | .badConfiguration => "bad configuration"

/-- The completion of a command with another status than OK, as text. -/
structure Refusal where
  raw : String
  status : String
  text : String
  code : String
  deriving DecidableEq, Repr

namespace Refusal

def ofResponse (r : Response) : Refusal where
  raw := r.shown
  status := (r.status?.map Status.name).getD ""
  text := r.text?.getD ""
  code := r.code?.getD ""

/-- Whether the credentials were turned down: the code says so, or a plain NO
comes with no code at all. -/
def ofCredentials (r : Refusal) : Bool :=
  Ascii.sameName r.code "AUTHENTICATIONFAILED" || Ascii.sameName r.code "EXPIRED" ||
    (Ascii.sameName r.status (Status.name .no) && r.code == "")

/-- Whether the server is only out of service for a while. -/
def ofAbsence (r : Refusal) : Bool := Ascii.sameName r.code "UNAVAILABLE"

end Refusal

inductive Breach where
  | unreadable (line : String)
  | oversized (length : Nat)
  | greeting (shown : String)
  | noContinuation (shown : String)
  | unfinished
  | other (text : String)
  deriving DecidableEq, Repr

def Breach.text : Breach → String
  | .unreadable line => "unable to parse response: " ++ Inspect.ofText line
  | .oversized length => s!"literal of {length} bytes is too large"
  | .greeting shown => "unexpected greeting: " ++ shown
  | .noContinuation shown => "expected a continuation request, got: " ++ shown
  | .unfinished => "AUTHENTICATE did not complete after response-auth"
  | .other text => text

/-- Why an authentication failed: the server refused it, or the exchange itself
did not prove what it had to. -/
inductive Denial where
  | refused (refusal : Refusal)
  | encoding (fault : Base64.Fault)
  | noNonce
  | algorithm (name : String)
  | mismatch
  | noProof
  | other (text : String)
  deriving DecidableEq, Repr

def Denial.text : Denial → String
  | .refused r => r.text
  | .encoding f => "invalid base64 from server: " ++ f.message
  | .noNonce => "DIGEST-MD5 challenge has no nonce"
  | .algorithm name => "unsupported DIGEST-MD5 algorithm " ++ Inspect.ofText name
  | .mismatch => "DIGEST-MD5 response-auth mismatch"
  | .noProof => "DIGEST-MD5 reply has no rspauth"
  | .other text => text

def Denial.refusal? : Denial → Option Refusal
  | .refused r => some r
  | _ => none

inductive Failure where
  | link (fault : Fault)
  | handshake
  | lost
  | breach (breach : Breach)
  | unavailable (text : String)
  | denied (denial : Denial)
  | refused (refusal : Refusal)
  | character (c : Char)
  | noCredentials
  | unbound
  deriving DecidableEq, Repr

namespace Failure

/-- The failure in words. A failed handshake has none of its own. -/
def message? : Failure → Option String
  | .link f => some f.text
  | .handshake => none
  | .lost => some "Connection Lost"
  | .breach b => some ("Protocol error: " ++ b.text)
  | .unavailable text => some ("Server unavailable: " ++ text)
  | .denied d => some ("Authentication failed: " ++ d.text)
  | .refused r => some ("Command failed: " ++ r.raw)
  | .character c => some ("Invalid character in input: " ++ Inspect.ofChar c)
  | .noCredentials => some "No credentials configured"
  | .unbound => some "Connection is not bound to a session context"

def health? : Failure → Option Health
  | .link _ => some .communicationError
  | .lost => some .communicationError
  | .handshake => some .serverError
  | .breach _ => some .serverError
  | .unavailable _ => some .serverError
  | .denied _ => some .badConfiguration
  | .noCredentials => some .badConfiguration
  | .refused _ => none
  | .character _ => none
  | .unbound => none

def isHandshake (f : Failure) : Bool := f == .handshake

/-- Failures of the link itself, as against what was said over it. -/
def isOfLink : Failure → Bool
  | .link _ => true
  | .lost => true
  | .handshake => true
  | _ => false

end Failure

end ImapSession
