import ImapSession.Text.Ascii
import ImapSession.Text.Blank
import ImapSession.Text.Quoted

/-!
Directive lists, `key=value` pairs as the login mechanism exchanges them. The
list is scanned, not parsed: wherever a key and an equals sign stand, blanks
around the sign allowed, a directive begins; its value is a quoted string if one
can be read there, and otherwise all text up to the next comma. Whatever stands
between directives is passed over. Keys are lower-cased, and where one occurs
twice the later value counts.
-/
namespace ImapSession.Directives

def isKeyChar (c : Char) : Bool := c.isAlphanum || c == '_' || c == '-'

/-- The inside of a quoted string as it is written, from after its opening quote,
and what follows the closing one. A backslash takes the character after it, but
no line end. -/
def insideOnto (done : List Char) : List Char → Option (List Char × List Char)
  | [] => none
  | c :: r =>
    if c = '"' then some (done.reverse, r)
    else if c = '\\' then
      match r with
      | [] => none
      | d :: s => if d = '\n' then none else insideOnto (d :: c :: done) s
    else insideOnto (c :: done) r

def written (cs : List Char) : List Char × List Char :=
  match cs with
  | [] => ([], [])
  | c :: r =>
    match if c = '"' then insideOnto [] r else none with
    | some (inside, rest) => ('"' :: inside ++ ['"'], rest)
    | none => (cs.takeWhile (· ≠ ','), cs.dropWhile (· ≠ ','))

/-- What a written value says: blanks around it go, and then quotes around it. -/
def meaning (value : List Char) : List Char :=
  let value := Blank.strip value
  match value with
  | [] => []
  | c :: r =>
    if c = '"' ∧ r.getLast? = some '"' then Quoted.unescape r.dropLast else value

/-- After a key: the value behind an equals sign, and what follows it. -/
def afterKey? (cs : List Char) : Option (List Char × List Char) :=
  match cs.dropWhile Blank.isBlank with
  | [] => none
  | c :: r => if c = '=' then some (written (r.dropWhile Blank.isBlank)) else none

theorem length_dropWhile_le (p : α → Bool) (l : List α) : (l.dropWhile p).length ≤ l.length :=
  (List.dropWhile_suffix p).length_le

theorem length_insideOnto {cs done inside rest : List Char}
    (h : insideOnto done cs = some (inside, rest)) : rest.length ≤ cs.length := by
  fun_induction insideOnto done cs with
  | case1 => simp at h
  | case2 done r => simp only [Option.some.injEq, Prod.mk.injEq] at h; simp [← h.2]
  | case3 => simp at h
  | case4 => simp at h
  | case5 done d s _ _ ih => have := ih h; simp only [List.length_cons]; omega
  | case6 done c r _ _ ih => have := ih h; simp only [List.length_cons]; omega

theorem length_written (cs : List Char) : (written cs).2.length ≤ cs.length := by
  unfold written
  split
  · simp
  · rename_i c r
    split
    · rename_i inside rest h
      have : rest.length ≤ r.length := by
        split at h
        · exact length_insideOnto h
        · simp at h
      simp only [List.length_cons]
      omega
    · exact length_dropWhile_le _ _

theorem length_afterKey {cs value rest : List Char} (h : afterKey? cs = some (value, rest)) :
    rest.length ≤ cs.length := by
  unfold afterKey? at h
  split at h
  · simp at h
  · rename_i c r hd
    split at h
    · simp only [Option.some.injEq] at h
      have h₁ := length_written (r.dropWhile Blank.isBlank)
      have h₂ := length_dropWhile_le Blank.isBlank r
      have h₃ := length_dropWhile_le Blank.isBlank cs
      rw [hd, List.length_cons] at h₃
      rw [h] at h₁
      simp only at h₁
      omega
    · simp at h

def scan : List Char → List (String × String)
  | [] => []
  | c :: r =>
    if isKeyChar c then
      match _found : afterKey? (r.dropWhile isKeyChar) with
      | some (value, rest) =>
        (String.ofList ((c :: r.takeWhile isKeyChar).map Char.toLower),
          String.ofList (meaning value)) :: scan rest
      | none => scan (r.dropWhile isKeyChar)
    else scan r
termination_by cs => cs.length
decreasing_by
  · have h₁ := length_afterKey _found
    have h₂ := length_dropWhile_le isKeyChar r
    simp only [List.length_cons]
    omega
  · have h₂ := length_dropWhile_le isKeyChar r
    simp only [List.length_cons]
    omega
  · simp

def ofText (message : String) : List (String × String) := scan message.toList

/-- The value of a key: the last one given. -/
def find? (directives : List (String × String)) (key : String) : Option String :=
  directives.reverse.lookup key

/-- Each key once, in the order of the keys, with the value that counts. -/
def table (directives : List (String × String)) : List (String × String) :=
  let keys := (directives.map (·.1)).eraseDups.mergeSort fun a b => !decide (b < a)
  keys.map fun k => (k, (find? directives k).getD "")

end ImapSession.Directives
