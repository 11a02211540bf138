import ImapSession.Stream

/-!
A far end that answers line by line. It holds one reply for each line it is
going to hear; once it has none left it ends its side, or falls silent if it is
of the stalling kind, and goes on listening. A reply may turn it into one that
takes whatever it hears next for the opening of a handshake: it answers that
with fixed bytes, ends its side and hears nothing more.
-/
namespace ImapSession

structure Reply where
  bytes : List UInt8
  handshake : Option (List UInt8)
  deriving DecidableEq, Repr

structure Peer where
  replies : List Reply
  awaited : Option (List UInt8)
  stalls : Bool
  deriving DecidableEq, Repr

namespace Peer

def mute : Peer := ⟨[], none, false⟩

/-- What a reader meets when it has read all that was sent. -/
def idle (p : Peer) : Idle :=
  if p.stalls || !p.replies.isEmpty || p.awaited.isSome then .silent else .ended

def answer (p : Peer) : List UInt8 × Peer :=
  match p.replies with
  | [] => ([], p)
  | r :: rest => (r.bytes, { p with replies := rest, awaited := r.handshake })

def hear (p : Peer) : List UInt8 → List UInt8 × Peer
  | [] => ([], p)
  | b :: r =>
    match p.awaited with
    | some reply => (reply, mute)
    | none =>
      if b = Stream.lf then
        let (sent, q) := p.answer
        let (later, q) := hear q r
        (sent ++ later, q)
      else hear p r

end Peer

end ImapSession
