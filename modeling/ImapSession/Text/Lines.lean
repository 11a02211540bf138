/-!
Bytes cut into lines. Each line keeps its LF; what follows the last LF is no
line yet.
-/
namespace ImapSession.Lines

def lf : UInt8 := 0x0a

def splitOnto (done : List (List UInt8)) (line : List UInt8) :
    List UInt8 → List (List UInt8) × List UInt8
  | [] => (done.reverse, line.reverse)
  | b :: r =>
    if b = lf then splitOnto ((b :: line).reverse :: done) [] r else splitOnto done (b :: line) r

/-- The lines among some bytes, and the unfinished one after them. -/
def split (bytes : List UInt8) : List (List UInt8) × List UInt8 := splitOnto [] [] bytes

/-- The lines among some bytes, the unfinished one included unless it is empty. -/
def pieces (bytes : List UInt8) : List (List UInt8) :=
  let (lines, rest) := split bytes
  if rest = [] then lines else lines ++ [rest]

end ImapSession.Lines
