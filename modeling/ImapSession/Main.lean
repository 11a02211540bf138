import ImapSession.CommandLine

/-!
The program. The conversation's other side is read from standard input: all the
server is going to say, from the greeting to the answer to the logout. What the
client learns goes to standard output; what the owner of the account is told
about the health of the link goes to standard error.
-/
namespace ImapSession

partial def readAll (stream : IO.FS.Stream) (done : ByteArray) : IO ByteArray := do
  let bytes ← stream.read 65536
  if bytes.isEmpty then pure done else readAll stream (done ++ bytes)

/-- The variables of the environment that a run may look up. -/
def consulted : List String := ["HOST", "MAILUSER", "PASSWORD"]

def complaint : CommandLine.Outcome → Option String
  | .finished => none
  | .stopped .help => none
  | .stopped .usage =>
    some "usage: --host HOST -p PORT -u USER --disable NAME --timeout SECONDS --insecure"
  | .missing name => some ("environment variable not set: " ++ name)
  | .failed f => some (f.message?.getD "TLS handshake failed")

end ImapSession

open ImapSession in
def main (arguments : List String) : IO UInt32 := do
  let server ← readAll (← IO.getStdin) .empty
  let values ← consulted.mapM fun name => return (name, ← IO.getEnv name)
  let random ← IO.getRandomBytes (USize.ofNat Exchange.nonceBytes)
  let network := fun _ _ => Server.supply [⟨server.toList, [], false⟩]
  let report := CommandLine.run arguments (fun name => (values.lookup name).bind id) network
    (Exchange.nonceOf random.toList)
  for line in report.lines do
    IO.println line
  for health in report.healths do
    IO.eprintln ("channel state: " ++ health.shown)
  match complaint report.outcome with
  | some text => IO.eprintln text
  | none => pure ()
  return UInt32.ofNat report.outcome.code
