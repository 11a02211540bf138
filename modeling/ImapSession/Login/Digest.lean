import ImapSession.Failure
import ImapSession.Login.Directives
import ImapSession.Md5

/-!
The DIGEST-MD5 login: the server challenges with a realm and a nonce, the client
proves that it knows the password, and the server proves the same in return.
Both proofs are one digest over the same values; only the second word of what is
proved differs. The digest covers the values themselves, never their quoted form.
-/
namespace ImapSession

/-- What goes into both proofs of one exchange. -/
structure Exchange where
  username : String
  password : String
  realm : String
  nonce : String
  clientNonce : String
  uri : String
  deriving DecidableEq, Repr

namespace Exchange

def mechanism : String := "DIGEST-MD5"
def nonceCount : String := "00000001"
def quality : String := "auth"
def charset : String := "utf-8"
def algorithm : String := "md5-sess"

/-- Text of the base64 form that payloads have, blanks inside it left out. -/
def decode (payload : String) : Except Denial String :=
  match Base64.decode (Utf8.encode (Blank.remove payload)) with
  | .ok bytes => .ok (Utf8.decode bytes)
  | .error f => .error (.encoding f)

def encode (text : String) : String := Base64.encode (Utf8.encode text)

/-- Take up a challenge. It needs a nonce, and may name no other algorithm. -/
def ofChallenge (username password host challenge clientNonce : String) :
    Except Denial Exchange :=
  let directives := Directives.ofText challenge
  match Directives.find? directives "nonce" with
  | none => .error .noNonce
  | some nonce =>
    let x : Exchange := {
      username, password, nonce, clientNonce
      realm := (Directives.find? directives "realm").getD ""
      uri := "imap/" ++ host }
    match Directives.find? directives "algorithm" with
    | none => .ok x
    | some name => if Ascii.sameName name algorithm then .ok x else .error (.algorithm name)

def hash (text : String) : String := Md5.hex (Md5.digest (Utf8.encode text))

/-- The digest that proves the password for an action. -/
def proof (x : Exchange) (action : String) : String :=
  let secret := Md5.digest (Utf8.encode (x.username ++ ":" ++ x.realm ++ ":" ++ x.password))
  let session := Md5.hex
    (Md5.digest (secret ++ Utf8.encode (":" ++ x.nonce ++ ":" ++ x.clientNonce)))
  hash (session ++ ":" ++ x.nonce ++ ":" ++ nonceCount ++ ":" ++ x.clientNonce ++ ":" ++
    quality ++ ":" ++ hash action)

def clientProof (x : Exchange) : String := x.proof ("AUTHENTICATE:" ++ x.uri)

def serverProof (x : Exchange) : String := x.proof (":" ++ x.uri)

def answer (x : Exchange) : String :=
  "charset=" ++ charset ++ ",username=" ++ Quoted.encode x.username ++
    ",realm=" ++ Quoted.encode x.realm ++ ",nonce=" ++ Quoted.encode x.nonce ++
    ",nc=" ++ nonceCount ++ ",cnonce=" ++ Quoted.encode x.clientNonce ++
    ",digest-uri=" ++ Quoted.encode x.uri ++ ",response=" ++ x.clientProof ++
    ",qop=" ++ quality

def verify (x : Exchange) (message : String) : Except Denial Unit :=
  match Directives.find? (Directives.ofText message) "rspauth" with
  | none => .error .noProof
  | some given => if Ascii.sameName given x.serverProof then .ok () else .error .mismatch

/-- A client nonce from random bytes: twenty-four of them make thirty-two symbols. -/
def nonceOf (random : List UInt8) : String := Base64.encode random

def nonceBytes : Nat := 24

end Exchange

end ImapSession
