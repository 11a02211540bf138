import ImapSession.Text.Ascii
import ImapSession.Text.Blank
import ImapSession.Text.Utf8

/-!
The tokens of a data line: atoms, texts (quoted, or counted literals) and lists
in parentheses, with gaps of spaces and tabs between neighbours. Reading never
fails: it takes tokens as long as the grammar allows, and what is left becomes
one last atom. A list that is not closed is no token, and neither is anything
inside it.
-/
namespace ImapSession

inductive Token where
  | atom (name : String)
  | text (value : String)
  | list (items : List Token)
  deriving Repr

namespace Token

mutual

def decEq : (a b : Token) → Decidable (a = b)
  | .atom s, .atom t => decidable_of_iff (s = t) (by simp)
  | .text s, .text t => decidable_of_iff (s = t) (by simp)
  | .list xs, .list ys =>
    match decEqAll xs ys with
    | .isTrue h => .isTrue (by rw [h])
    | .isFalse h => .isFalse (by simpa using h)
  | .atom _, .text _ => .isFalse (by simp)
  | .atom _, .list _ => .isFalse (by simp)
  | .text _, .atom _ => .isFalse (by simp)
  | .text _, .list _ => .isFalse (by simp)
  | .list _, .atom _ => .isFalse (by simp)
  | .list _, .text _ => .isFalse (by simp)

def decEqAll : (xs ys : List Token) → Decidable (xs = ys)
  | [], [] => .isTrue rfl
  | [], _ :: _ => .isFalse (by simp)
  | _ :: _, [] => .isFalse (by simp)
  | x :: xs, y :: ys =>
    match decEq x y, decEqAll xs ys with
    | .isTrue h, .isTrue k => .isTrue (by rw [h, k])
    | .isFalse h, _ => .isFalse (by simp [h])
    | _, .isFalse k => .isFalse (by simp [k])

end

instance : DecidableEq Token := decEq

/-- What an atom or a text holds; a list holds neither. -/
def value? : Token → Option String
  | .atom s => some s
  | .text s => some s
  | .list _ => none

def openList : UInt8 := 0x28
def closeList : UInt8 := 0x29
def openCount : UInt8 := 0x7b
def closeCount : UInt8 := 0x7d
def quote : UInt8 := 0x22
def backslash : UInt8 := 0x5c
def cr : UInt8 := 0x0d
def lf : UInt8 := 0x0a

/-- Visible ASCII, less what opens or closes a list, a count or a quoted text. -/
def isAtomByte (b : UInt8) : Bool :=
  0x20 < b && b < 0x7f && b != openList && b != closeList && b != openCount && b != quote

/-- A space or a tab. -/
def isGap (b : UInt8) : Bool := b == 0x20 || b == 0x09

/-- A quoted text from after its opening quote: a backslash takes the byte after
it, whatever that is. -/
def quotedOnto (done : List UInt8) : List UInt8 → Option (List UInt8 × List UInt8)
  | [] => none
  | b :: r =>
    if b = quote then some (done.reverse, r)
    else if b = backslash then
      match r with
      | [] => none
      | c :: s => quotedOnto (c :: done) s
    else quotedOnto (b :: done) r

/-- The first `n` bytes and the rest, if there are so many. -/
def cutOnto (done : List UInt8) : Nat → List UInt8 → Option (List UInt8 × List UInt8)
  | 0, r => some (done.reverse, r)
  | _ + 1, [] => none
  | n + 1, b :: r => cutOnto (b :: done) n r

/-- A literal from after its opening brace: a count, the closing brace and a line
end, and as many bytes as the count says. -/
def literal (bytes : List UInt8) : Option (List UInt8 × List UInt8) :=
  let digits := bytes.takeWhile Ascii.isDigit
  match bytes.drop digits.length with
  | a :: b :: c :: r =>
    if digits ≠ [] ∧ a = closeCount ∧ b = cr ∧ c = lf then
      cutOnto [] (Ascii.decimal digits) r
    else none
  | _ => none

def atomOf (bytes : List UInt8) : Token × List UInt8 :=
  (.atom (Utf8.decode (bytes.takeWhile isAtomByte)), bytes.dropWhile isAtomByte)

mutual

/-- The token at the front, and what follows it. The first argument bounds the
depth of the reading; the length of the bytes and one more is always enough. -/
def first : Nat → List UInt8 → Option (Token × List UInt8)
  | 0, _ => none
  | _ + 1, [] => none
  | n + 1, b :: r =>
    if b = openList then
      let inside := match first n r with
        | none => ([], r)
        | some (t, s) =>
          let (ts, u) := more n s
          (t :: ts, u)
      match inside with
      | (ts, c :: s) => if c = closeList then some (.list ts, s) else none
      | (_, []) => none
    else if b = openCount then
      (literal r).map fun (data, s) => (.text (Utf8.decode data), s)
    else if b = quote then
      (quotedOnto [] r).map fun (data, s) => (.text (Utf8.decode data), s)
    else if isAtomByte b then some (atomOf (b :: r))
    else none

/-- The tokens that follow a first one, each after a gap. A gap with no token
behind it is left where it is. -/
def more : Nat → List UInt8 → List Token × List UInt8
  | 0, bytes => ([], bytes)
  | n + 1, bytes =>
    if (bytes.takeWhile isGap).isEmpty then ([], bytes)
    else
      match first n (bytes.dropWhile isGap) with
      | none => ([], bytes)
      | some (t, r) =>
        let (ts, s) := more n r
        (t :: ts, s)

end

/-- As many tokens as the grammar allows, and what it does not cover. -/
def several (bytes : List UInt8) : List Token × List UInt8 :=
  match first (bytes.length + 1) bytes with
  | none => ([], bytes)
  | some (t, r) =>
    let (ts, s) := more (bytes.length + 1) r
    (t :: ts, s)

/-- All of a data line: its tokens, then whatever else it says as one atom. -/
def ofBytes (bytes : List UInt8) : List Token :=
  let (ts, rest) := several bytes
  let tail := Blank.trim (Utf8.decode rest)
  if tail = "" then ts else ts ++ [.atom tail]

end Token

end ImapSession
