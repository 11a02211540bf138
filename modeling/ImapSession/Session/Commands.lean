import ImapSession.Session.Basic

/-!
Commands and their answers on a session's link. A command goes out on a line
behind a fresh tag; its answer is read up to the line that completes it or asks
for more. Any completion but OK is a failure, and leaves nothing half read.
-/
namespace ImapSession.Op

/-- What the record shows in place of a line that must not be seen. -/
def redacted : String := "[IMAP command redacted]"

def reading (f : Framer → Stream → Except Failure α × Framer × Stream) : Op α := do
  let before ← framer
  let l ← link
  if l.isOpen then
    let (result, after, stream) := f before l.stream
    setSession fun s =>
      { s with framer := some after, link := some { l with incoming := stream.segments } }
    settle result
  else throw (.link l.closedFault)

def read : Op Response := reading Framer.next

/-- Forget what was read of an unfinished response. -/
def discard : Op Unit := setSession fun s => { s with framer := s.framer.map fun _ => .empty }

/-- Read the whole answer to a command: all responses up to the completion with
OK, or up to a request to continue. -/
def collect : Op (List Response) := do
  let (before, last) ← reading Framer.batch
  if last.isContinuation || last.isOk then pure (before ++ [last])
  else
    discard
    report .serverError
    let refusal := Refusal.ofResponse last
    if refusal.ofAbsence then throw (.unavailable refusal.text) else throw (.refused refusal)

/-- Write a line on the link; `shown` is what the record may hold of it. -/
def write (line shown : String) : Op Unit := do
  let l ← link
  let (result, l) := l.write line
  setSession fun s => { s with link := some l }
  settle (result.mapError .link)
  record l.owner (.write line shown)

def sendTagged (command : String) (sensitive : Bool) : Op String := do
  let counter := (← session).counter
  let drawn := ((← world).tags).draw counter
  setWorld fun w => { w with tags := drawn.2 }
  let tag := toString drawn.1.toNat
  let line := tag ++ " " ++ command
  write line (if sensitive then tag ++ " " ++ redacted else line)
  pure tag

def run (command : String) (sensitive : Bool) : Op (List Response) := do
  let _ ← sendTagged command sensitive
  collect

/-- Answer a request to continue, and read what follows. -/
def resume (payload : String) (sensitive : Bool) : Op (List Response) := do
  write payload (if sensitive then redacted else payload)
  collect

end ImapSession.Op
