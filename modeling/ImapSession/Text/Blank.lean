/-!
Blank characters: the twenty-five code points of the Unicode property
White_Space. Trimming and the gaps of a directive list go by this set; the
line grammar of the protocol does not, it knows the space and the tab only.
-/
namespace ImapSession.Blank

def isBlank (c : Char) : Bool :=
  let n := c.toNat
  (9 ≤ n && n ≤ 13) || n == 0x20 || n == 0x85 || n == 0xa0 || n == 0x1680 ||
    (0x2000 ≤ n && n ≤ 0x200a) || n == 0x2028 || n == 0x2029 || n == 0x202f ||
    n == 0x205f || n == 0x3000

/-- Drop what satisfies `p` from the end. -/
def dropEnd (p : α → Bool) (l : List α) : List α := (l.reverse.dropWhile p).reverse

def strip (cs : List Char) : List Char := dropEnd isBlank (cs.dropWhile isBlank)

def trim (s : String) : String := String.ofList (strip s.toList)

def remove (s : String) : String := String.ofList (s.toList.filter fun c => !isBlank c)

end ImapSession.Blank
