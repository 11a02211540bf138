/-!
Quoted strings, as the protocol and its login mechanism write them: the text
stands between two quotes, with a backslash before each quote and each
backslash inside. A line that carries such a string may hold no line end.
-/
namespace ImapSession.Quoted

def escape : List Char → List Char :=
  List.flatMap fun c => if c = '"' ∨ c = '\\' then ['\\', c] else [c]

/-- Drop each escaping backslash; one that escapes nothing goes too. -/
def unescapeOnto (done : List Char) : List Char → List Char
  | [] => done.reverse
  | c :: r =>
    if c = '\\' then
      match r with
      | [] => done.reverse
      | d :: s => unescapeOnto (d :: done) s
    else unescapeOnto (c :: done) r

def unescape (cs : List Char) : List Char := unescapeOnto [] cs

def encode (s : String) : String := String.ofList ('"' :: escape s.toList ++ ['"'])

def lineEnd? (s : String) : Option Char := s.toList.find? fun c => c = '\n' || c = '\r'

end ImapSession.Quoted
