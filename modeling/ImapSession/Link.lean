import ImapSession.Peer
import ImapSession.Text.Utf8

/-!
A link to a server, from before it is opened until it is closed. What its far end
will do is part of the link: the bytes it sends, which calls fail and how, and
what becomes of a request for encryption. Its owner is the account that gave it
out. A link that is not open refuses every use with one and the same fault.
-/
namespace ImapSession

/-- What becomes of a request for encryption: from then on other bytes are read;
or it fails and the link stays as it was; or the link is lost over it. -/
inductive Upgrade where
  | granted (segments : List Segment)
  | declined (fault : Fault)
  | broken
  deriving DecidableEq, Repr

structure Link where
  owner : Nat
  isOpen : Bool
  isSecure : Bool
  incoming : List Segment
  peer : Peer
  upgrade : Upgrade
  openFault : Option Fault
  writes : Nat
  writeFaults : List (Nat × Fault)
  closedFault : Fault
  deriving DecidableEq, Repr

namespace Link

def stream (l : Link) : Stream := ⟨l.incoming, l.peer.idle⟩

def establish (l : Link) : Except Fault Link :=
  match l.openFault with
  | some f => .error f
  | none => .ok { l with isOpen := true }

/-- Take the link down, from either side. -/
def sever (l : Link) : Link := { l with isOpen := false }

/-- The number of a write call is its place among the calls made while open. -/
def writeFault? (l : Link) : Option Fault := l.writeFaults.lookup (l.writes + 1)

def wire (line : String) : List UInt8 := Utf8.encode line ++ [0x0d, 0x0a]

/-- Send a line. A call that fails sends nothing. -/
def write (l : Link) (line : String) : Except Fault Unit × Link :=
  if !l.isOpen then (.error l.closedFault, l)
  else
    let counted := { l with writes := l.writes + 1 }
    match l.writeFault? with
    | some f => (.error f, counted)
    | none =>
      let (sent, peer) := l.peer.hear (wire line)
      let incoming := if sent = [] then l.incoming else l.incoming ++ [.bytes sent]
      (.ok (), { counted with incoming, peer })

inductive UpgradeResult where
  | secured
  | failed (fault : Fault)
  | broken
  deriving DecidableEq, Repr

/-- Ask for encryption. Once it is granted the far end is another: nothing it
sent before can be read any more. -/
def secure (l : Link) : UpgradeResult × Link :=
  if !l.isOpen then (.failed l.closedFault, l)
  else
    match l.upgrade with
    | .granted segments =>
      (.secured, { l with isSecure := true, incoming := segments, peer := .mute })
    | .declined f => (.failed f, l)
    | .broken => (.broken, l.sever)

end Link

end ImapSession
