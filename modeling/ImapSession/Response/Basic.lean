import ImapSession.Response.Token

/-!
What a server says, one response at a time: a request to continue, a condition
(a status with an optional code and a text), data as tokens, or the completion
of a command, which always carries a condition. A response keeps the bytes it
was read from.
-/
namespace ImapSession

inductive Status where
  | ok | no | bad | preauth | bye
  deriving DecidableEq, Repr

namespace Status

def all : List Status := [.ok, .no, .bad, .preauth, .bye]

def name : Status → String
  | .ok => "OK"
  | .no => "NO"
  | .bad => "BAD"
  | .preauth => "PREAUTH"
  | .bye => "BYE"

/-- The status a word names, in any letter case. -/
def ofName? (word : String) : Option Status := all.find? fun s => Ascii.sameName s.name word

end Status

/-- A status, the code in brackets if there is one, and the text for the reader. -/
structure Condition where
  status : Status
  code : Option String
  text : String
  deriving DecidableEq, Repr

inductive Message where
  | continuation (payload : String)
  | untagged (condition : Condition)
  | data (tokens : List Token)
  | completion (tag : String) (condition : Condition)
  deriving DecidableEq, Repr

structure Response where
  message : Message
  raw : List UInt8
  deriving DecidableEq, Repr

namespace Response

def isContinuation (r : Response) : Bool :=
  match r.message with
  | .continuation _ => true
  | _ => false

def isUntagged (r : Response) : Bool :=
  match r.message with
  | .untagged _ => true
  | .data _ => true
  | _ => false

def tag? (r : Response) : Option String :=
  match r.message with
  | .completion tag _ => some tag
  | _ => none

def isCompletion (r : Response) : Bool := r.tag?.isSome

def condition? (r : Response) : Option Condition :=
  match r.message with
  | .untagged c => some c
  | .completion _ c => some c
  | _ => none

def status? (r : Response) : Option Status := r.condition?.map (·.status)

def isOk (r : Response) : Bool := r.status? == some .ok

def code? (r : Response) : Option String := r.condition?.bind (·.code)

/-- The text of a condition, or the payload of a request to continue. -/
def text? (r : Response) : Option String :=
  match r.message with
  | .continuation payload => some payload
  | _ => r.condition?.map (·.text)

/-- The tokens of a data line. A request to continue counts as one atom. -/
def tokens (r : Response) : List Token :=
  match r.message with
  | .continuation payload => [.atom payload]
  | .data ts => ts
  | _ => []

/-- What the token at a place holds, and nothing where there is none or a list. -/
def valueAt (r : Response) (place : Nat) : String :=
  ((r.tokens[place]?).bind Token.value?).getD ""

/-- The response as text, without the line end. -/
def shown (r : Response) : String :=
  String.ofList (Blank.dropEnd (fun c => c = '\r' || c = '\n') (Utf8.decode r.raw).toList)

end Response

end ImapSession
