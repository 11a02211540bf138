import ImapSession.Response.Line
import ImapSession.Text.Inspect
import ImapSession.Text.Lines

/-!
The capabilities a server names. A line that offers or enables capabilities to
the letter is read by the strict grammar, which writes the protocol's own name
and the mechanism mark of an offer in one letter case; from any other untagged
line its tokens are taken as they stand. Names that are switched off are left out
as if they had not been sent. Looking a name up ignores letter case.
-/
namespace ImapSession

structure Capabilities where
  names : List String
  deriving DecidableEq, Repr

namespace Capabilities

def empty : Capabilities := ⟨[]⟩

/-- Drop the ASCII text `word` from the front, in any letter case. -/
def dropWord? (word : String) (bytes : List UInt8) : Option (List UInt8) :=
  let n := word.length
  if (bytes.take n).length = n ∧
      Ascii.sameName (String.ofList ((bytes.take n).map fun b => Char.ofNat b.toNat)) word then
    some (bytes.drop n)
  else none

/-- The bytes of an atom in the strict grammar. -/
def isAtomByte (b : UInt8) : Bool :=
  0x21 ≤ b && b ≤ 0x7f && b != 0x28 && b != 0x29 && b != 0x7b && b != 0x25 && b != 0x2a &&
    b != 0x22 && b != 0x5c && b != 0x5d

def atom? (bytes : List UInt8) : Option (String × List UInt8) :=
  let name := bytes.takeWhile isAtomByte
  if name = [] then none else some (Utf8.decode name, bytes.drop name.length)

def revision : String := "IMAP4rev1"
def mechanismMark : String := "AUTH="
def word : String := "CAPABILITY"
def enabledWord : String := "ENABLED"

/-- What a line of the strict grammar says about the capabilities on it. -/
inductive Heading where
  | offered
  | enabled
  deriving DecidableEq, Repr

/-- One capability on offer: the protocol's own name, whatever follows it; or a
mechanism; or any atom. -/
def offered? (bytes : List UInt8) : Option (String × List UInt8) :=
  match dropWord? revision bytes with
  | some rest => some (revision, rest)
  | none =>
    match (dropWord? mechanismMark bytes).bind atom? with
    | some (mechanism, rest) => some (mechanismMark ++ mechanism, rest)
    | none => atom? bytes

theorem length_dropWord {w : String} {bytes rest : List UInt8}
    (h : dropWord? w bytes = some rest) : rest.length ≤ bytes.length := by
  unfold dropWord? at h
  simp only at h
  split at h
  · simp only [Option.some.injEq] at h
    simp [← h]
  · simp at h

theorem length_atom {bytes rest : List UInt8} {name : String}
    (h : atom? bytes = some (name, rest)) : rest.length ≤ bytes.length := by
  unfold atom? at h
  simp only at h
  split at h
  · simp at h
  · simp only [Option.some.injEq, Prod.mk.injEq] at h
    simp [← h.2]

theorem length_offered {bytes rest : List UInt8} {name : String}
    (h : offered? bytes = some (name, rest)) : rest.length ≤ bytes.length := by
  unfold offered? at h
  split at h
  · rename_i r hr
    simp only [Option.some.injEq, Prod.mk.injEq] at h
    exact h.2 ▸ length_dropWord hr
  · split at h
    · rename_i m r hm
      obtain ⟨r', h₁, h₂⟩ := Option.bind_eq_some_iff.1 hm
      simp only [Option.some.injEq, Prod.mk.injEq] at h
      have := length_dropWord h₁
      have := length_atom h₂
      rw [← h.2]
      omega
    · exact length_atom h

/-- One capability behind its space. What is enabled is an atom, as it stands. -/
def strictName? : Heading → List UInt8 → Option (String × List UInt8)
  | .offered, bytes => offered? bytes
  | .enabled, bytes => atom? bytes

theorem length_strictName {heading : Heading} {bytes rest : List UInt8} {name : String}
    (h : strictName? heading bytes = some (name, rest)) : rest.length ≤ bytes.length := by
  cases heading with
  | offered => exact length_offered h
  | enabled => exact length_atom h

def strictNames (heading : Heading) : List UInt8 → List String × List UInt8
  | [] => ([], [])
  | b :: r =>
    if b = Line.space then
      match _found : strictName? heading r with
      | none => ([], b :: r)
      | some (name, rest) =>
        let (names, rest) := strictNames heading rest
        (name :: names, rest)
    else ([], b :: r)
termination_by bytes => bytes.length
decreasing_by
  have := length_strictName _found
  simp only [List.length_cons]
  omega

def heading? (raw : List UInt8) : Option (Heading × List UInt8) :=
  match dropWord? ("* " ++ word) raw with
  | some rest => some (.offered, rest)
  | none => (dropWord? ("* " ++ enabledWord) raw).map fun rest => (.enabled, rest)

/-- The names on a line of the strict grammar. Spaces and a line end close it,
what comes after that is not looked at, and the protocol's own name has to be
among what is offered. -/
def strictLine? (raw : List UInt8) : Option (List String) :=
  match heading? raw with
  | none => none
  | some (heading, rest) =>
    let (names, rest) := strictNames heading rest
    match rest.dropWhile (· = Line.space) with
    | a :: b :: _ =>
      if a = Token.cr ∧ b = Token.lf ∧ (heading = .enabled ∨ names.contains revision) then
        some names
      else none
    | _ => none

def ofLine (r : Response) : List String :=
  match strictLine? r.raw with
  | some names => names
  | none => (r.tokens.filterMap Token.value?).filter fun t => !Ascii.sameName t word

def isDisabled (disabled : List String) (name : String) : Bool :=
  disabled.any fun d => Ascii.sameName d name

/-- All names on the untagged lines, each once, without those switched off. -/
def ofResponses (rs : List Response) (disabled : List String) : Capabilities :=
  let names := (rs.filter Response.isUntagged).flatMap ofLine
  ⟨(names.filter fun n => !isDisabled disabled n).eraseDups⟩

def has (c : Capabilities) (name : String) : Bool := c.names.any fun n => Ascii.sameName n name

def sorted (c : Capabilities) : List String := c.names.mergeSort fun a b => !decide (b < a)

def shown (c : Capabilities) : String := "[" ++ String.intercalate ", " c.sorted ++ "]"

/-- The capabilities on the lines of a text, if each line is a response. -/
def ofText? (text : String) (disabled : List String) : Option Capabilities :=
  ((Lines.pieces (Utf8.encode text)).mapM Line.response?).map fun rs =>
    ofResponses rs disabled

end Capabilities

end ImapSession
