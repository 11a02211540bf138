import ImapSession.Session.Opening

/-!
What can be asked of a session, and the answers. Several sessions may stand in
one world; they share nothing but what the world holds.
-/
namespace ImapSession

inductive Request where
  | connect
  | close
  | discard
  | bind (account : Nat)
  | send (command : String) (sensitive : Bool)
  | execute (command : String) (sensitive : Bool)
  | resume (payload : String) (sensitive : Bool)
  | collect
  | read
  deriving DecidableEq, Repr

inductive Answer where
  | done
  | tag (tag : String)
  | response (response : Response)
  | responses (responses : List Response)
  | failure (failure : Failure)
  deriving DecidableEq, Repr

namespace Request

def op : Request → Op Answer
  | .connect => do
    Op.connect
    pure .done
  | .close => do
    Op.close
    pure .done
  | .discard => do
    Op.discard
    pure .done
  | .bind account => do
    let w ← Op.world
    Op.setSession fun s => s.bind w account
    pure .done
  | .send command sensitive => do pure (.tag (← Op.send command sensitive))
  | .execute command sensitive => do pure (.responses (← Op.execute command sensitive))
  | .resume payload sensitive => do pure (.responses (← Op.resume payload sensitive))
  | .collect => do pure (.responses (← Op.collect))
  | .read => do pure (.response (← Op.read))

def serve (r : Request) (s : Scene) : Answer × Scene :=
  match r.op s with
  | .ok a s => (a, s)
  | .error e s => (.failure e, s)

end Request

structure Pool where
  sessions : List Session
  world : World

namespace Pool

def start (w : World) : Pool := ⟨[.bound w 0], w⟩

def add (p : Pool) (account : Nat) : Pool :=
  { p with sessions := p.sessions ++ [.bound p.world account] }

def change (p : Pool) (i : Nat) (f : Session → Session) : Pool :=
  { p with sessions := p.sessions.modify i f }

/-- Ask something of one session. Of one that is not there nothing can be asked. -/
def serve (p : Pool) (i : Nat) (r : Request) : Option (Answer × Pool) :=
  match p.sessions[i]? with
  | none => none
  | some s =>
    let (a, scene) := r.serve ⟨s, p.world⟩
    some (a, ⟨p.sessions.set i scene.session, scene.world⟩)

end Pool

end ImapSession
