import ImapSession.Text.Extending
import ImapSession.Text.Unprintable

/-!
How texts are shown inside messages: between quotes, with short escapes for
the common controls and code points for every other character that could not
be seen or would change the one before it.
-/
namespace ImapSession.Inspect

/-- One character as it stands between the given quotes. -/
def char (mark c : Char) : List Char :=
  if c = '\x00' then ['\\', '0']
  else if c = '\t' then ['\\', 't']
  else if c = '\r' then ['\\', 'r']
  else if c = '\n' then ['\\', 'n']
  else if c = mark ∨ c = '\\' then ['\\', c]
  else if Extending.holds c || Unprintable.holds c then
    '\\' :: 'u' :: '\x7b' :: Nat.toDigits 16 c.toNat ++ ['\x7d']
  else [c]

def between (mark : Char) (cs : List Char) : String :=
  String.ofList (mark :: cs.flatMap (char mark) ++ [mark])

def ofText (s : String) : String := between '"' s.toList

def ofChar (c : Char) : String := between '\x27' [c]

def ofText? : Option String → String
  | none => "None"
  | some s => "Some(" ++ ofText s ++ ")"

/-- Several texts as a set, in the order given. -/
def ofTexts (names : List String) : String :=
  "\x7b" ++ String.intercalate ", " (names.map ofText) ++ "\x7d"

end ImapSession.Inspect
