import ImapSession.Text.Lines
import ImapSession.World

/-!
Servers reached over a network, and what they hear. A server greets and then
answers line by line; no handshake with it ever succeeds, and one that fails
takes the link with it.
-/
namespace ImapSession

structure Server where
  greeting : List UInt8
  replies : List Reply
  stalls : Bool
  deriving DecidableEq, Repr

namespace Server

def quiet : Server := ⟨[], [], false⟩

def notOpen : Fault := ⟨.notConnected, "not open"⟩

def connectionRefused : Fault := ⟨.connectionRefused, "Connection refused (os error 111)"⟩

def link (s : Server) : Link where
  owner := 0
  isOpen := false
  isSecure := false
  incoming := if s.greeting = [] then [] else [.bytes s.greeting]
  peer := ⟨s.replies, none, s.stalls⟩
  upgrade := .broken
  openFault := none
  writes := 0
  writeFaults := []
  closedFault := notOpen

def refusing : Link := { quiet.link with openFault := some connectionRefused }

/-- The servers of a network, one for each link in turn, and then quiet ones. -/
def supply (servers : List Server) : Supply := ⟨servers.map link, quiet.link⟩

def nowhere : Supply := ⟨[], refusing⟩

/-- What was written on each link, in the order in which they were established.
The latest comes first while it is gathered. -/
def writtenOnto (done : List (List UInt8)) : List Event → List (List UInt8)
  | [] => done.reverse
  | e :: rest =>
    match e.act, done with
    | .establish, _ => writtenOnto ([] :: done) rest
    | .write line _, bytes :: before => writtenOnto ((bytes ++ Link.wire line) :: before) rest
    | _, _ => writtenOnto done rest

/-- A line as it is noted down: without its line end, but a lone LF stays. -/
def noted (line : List UInt8) : List UInt8 :=
  match line.reverse with
  | a :: b :: r => if a = 0x0a ∧ b = 0x0d then r.reverse else line
  | _ => line

/-- The lines a server hears. After the one that it answers by awaiting a
handshake it hears no more. -/
def hears (s : Server) (bytes : List UInt8) : List (List UInt8) :=
  let lines := (Lines.split bytes).1.map noted
  match s.replies.findIdx? (·.handshake.isSome) with
  | some i => lines.take (i + 1)
  | none => lines

def heard (servers : List Server) (log : List Event) : List (List (List UInt8)) :=
  (writtenOnto [] log).mapIdx fun i bytes => (servers.getD i quiet).hears bytes

end Server

end ImapSession
