import ImapSession.Response.Basic

/-!
Reading one response from its bytes. The first byte or word says what kind of
response it is; a status word after it makes a condition of the rest, and only
untagged lines may do without one.
-/
namespace ImapSession.Line

def space : UInt8 := 0x20
def plus : UInt8 := 0x2b
def star : UInt8 := 0x2a
def openCode : UInt8 := 0x5b
def closeCode : UInt8 := 0x5d

/-- Drop a byte at the end, once, if it is there. -/
def dropLastIf (b : UInt8) (bytes : List UInt8) : List UInt8 :=
  if bytes.getLast? = some b then bytes.dropLast else bytes

/-- Drop a line end: one LF, then one CR. -/
def chomp (bytes : List UInt8) : List UInt8 :=
  dropLastIf Token.cr (dropLastIf Token.lf bytes)

/-- The bytes a tag is made of: a star may be one of them, a plus may not. -/
def isTagByte (b : UInt8) : Bool := Token.isAtomByte b && b != plus

inductive Heading where
  | continuation
  | untagged
  | tagged (tag : String)
  deriving DecidableEq, Repr

def heading? (line : List UInt8) : Option (Heading × List UInt8) :=
  match line with
  | [] => none
  | a :: r =>
    if a = plus then some (.continuation, r)
    else if a = star ∧ r.head? = some space then some (.untagged, r.tail)
    else
      let tag := line.takeWhile isTagByte
      match line.dropWhile isTagByte with
      | b :: body =>
        if b = space ∧ tag ≠ [] then some (.tagged (Utf8.decode tag), body) else none
      | [] => none

/-- The code in brackets at the front, its arguments left out, and what follows
it. A bracket that is never closed opens no code. -/
def code? (bytes : List UInt8) : Option (String × List UInt8) :=
  match bytes with
  | [] => none
  | b :: r =>
    if b = openCode then
      match r.dropWhile (· ≠ closeCode) with
      | [] => none
      | _ :: rest =>
        let name := (r.takeWhile (· ≠ closeCode)).takeWhile (· ≠ space)
        some (Ascii.upper (Utf8.decode name), rest.dropWhile Token.isGap)
    else none

/-- A body as a condition: a status word that ends there or is followed by a gap,
an optional code, and the rest as text. -/
def conditionOf? (body : List UInt8) : Option Condition :=
  let rest := body.dropWhile Ascii.isLetter
  match Status.ofName? (Utf8.decode (body.takeWhile Ascii.isLetter)) with
  | none => none
  | some status =>
    if rest = [] ∨ (rest.head?.any Token.isGap) then
      let rest := rest.dropWhile Token.isGap
      match code? rest with
      | some (code, text) => some ⟨status, some code, Blank.trim (Utf8.decode text)⟩
      | none => some ⟨status, none, Blank.trim (Utf8.decode rest)⟩
    else none

/-- The payload of a request to continue: one space after the plus is no part of it. -/
def payload (body : List UInt8) : String :=
  Utf8.decode (if body.head? = some space then body.tail else body)

def messageOf? (line : List UInt8) : Option Message :=
  match heading? line with
  | none => none
  | some (.continuation, body) => some (.continuation (payload body))
  | some (.untagged, body) =>
    match conditionOf? body with
    | some c => some (.untagged c)
    | none => some (.data (Token.ofBytes body))
  | some (.tagged tag, body) => (conditionOf? body).map (.completion tag)

/-- Read a response from all of its bytes, the line end and any literals included. -/
def response? (raw : List UInt8) : Option Response :=
  (messageOf? (chomp raw)).map fun m => ⟨m, raw⟩

end ImapSession.Line
