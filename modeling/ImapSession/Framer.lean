import ImapSession.Failure
import ImapSession.Response.Line

/-!
Cutting the stream into responses. A response is a line; if the line announces
a literal at its end, that many bytes and a further line belong to it. What was
read of a response that could not be completed is held until the next attempt,
or until it is discarded.
-/
namespace ImapSession

/-- What is held of an unfinished response. The end that a broken literal left
blank is kept as a count of zero bytes. -/
structure Framer where
  bytes : List UInt8
  blank : Nat
  deriving DecidableEq, Repr

namespace Framer

def empty : Framer := ⟨[], 0⟩

/-- The bytes held, the blank ones written out. -/
def held (f : Framer) : List UInt8 := f.bytes ++ List.replicate f.blank 0

def isHolding (f : Framer) : Bool := !f.bytes.isEmpty || f.blank != 0

/-- The longest literal that is accepted, 64 MiB. -/
def maxLiteral : Nat := 64 * 1024 * 1024

/-- Counts are read as 64-bit words: a larger number announces nothing. -/
def maxCount : Nat := 0xffffffffffffffff

/-- A count, which may have a plus in front of its digits. -/
def count? (bytes : List UInt8) : Option Nat :=
  let digits := if bytes.head? = some Line.plus then bytes.tail else bytes
  if digits ≠ [] ∧ digits.all Ascii.isDigit ∧ Ascii.decimal digits ≤ maxCount then
    some (Ascii.decimal digits)
  else none

/-- The literal announced at the end of a line, which is given backwards: before
the line end stands a closing brace, and before that the count up to the nearest
opening one. -/
def announcedBack (back : List UInt8) : Option Nat :=
  let back := if back.head? = some Token.lf then back.tail else back
  let back := if back.head? = some Token.cr then back.tail else back
  match back with
  | [] => none
  | b :: r =>
    if b = Token.closeCount then
      match r.dropWhile (· ≠ Token.openCount) with
      | [] => none
      | _ :: _ => count? (r.takeWhile (· ≠ Token.openCount)).reverse
    else none

def announced (line : List UInt8) : Option Nat := announcedBack line.reverse

inductive Outcome where
  | response
  | lost
  | fault (fault : Fault)
  | oversized (length : Nat)
  deriving DecidableEq, Repr

/-- What was gathered, last byte first, with the blank end that a broken literal
leaves; how it ended; and what is left of the stream. -/
structure Gathered where
  back : List UInt8
  blank : Nat
  outcome : Outcome
  rest : List Segment
  deriving DecidableEq, Repr

def shortLiteral : Fault := ⟨.unexpectedEof, "failed to fill whole buffer"⟩

/-- Read lines and literals until a line announces no literal. -/
def gather (idle : Idle) (back : List UInt8) (segments : List Segment) : Gathered :=
  let l := Stream.line idle segments
  let back := l.bytes.reverse ++ back
  match _ends : l.stop with
  | .fault f => ⟨back, 0, .fault f, l.rest⟩
  | .ended => ⟨back, 0, .lost, l.rest⟩
  | .complete =>
    match announcedBack back with
    | none => ⟨back, 0, .response, l.rest⟩
    | some n =>
      if maxLiteral < n then ⟨back, 0, .oversized n, l.rest⟩
      else
        let d := Stream.exactly idle n l.rest
        match d.stop with
        | .complete => gather idle (d.bytes.reverse ++ back) d.rest
        | .ended => ⟨d.bytes.reverse ++ back, n - d.bytes.length, .fault shortLiteral, d.rest⟩
        | .fault f => ⟨d.bytes.reverse ++ back, n - d.bytes.length, .fault f, d.rest⟩
termination_by Stream.size segments
decreasing_by
  have h₁ := Stream.size_line idle segments
  have h₂ := Stream.line_ne_nil _ends
  have h₃ := Stream.size_exactly idle n (Stream.line idle segments).rest
  omega

/-- A response takes bytes off the stream. -/
theorem size_gather {idle : Idle} {back : List UInt8} {segments : List Segment}
    (h : (gather idle back segments).outcome = .response) :
    Stream.size (gather idle back segments).rest < Stream.size segments := by
  fun_induction gather idle back segments with
  | case1 => simp at h
  | case2 => simp at h
  | case3 back segments l back' ends hn =>
    have h₁ := Stream.size_line idle segments
    have h₂ := Stream.line_ne_nil ends
    simp only [l]
    omega
  | case4 => simp at h
  | case5 back segments l back' ends n hn hle d hd ih =>
    have h₁ := Stream.size_line idle segments
    have h₂ := Stream.line_ne_nil ends
    have h₃ := Stream.size_exactly idle n (Stream.line idle segments).rest
    have h₄ := ih h
    simp only [d, l] at h₄ ⊢
    omega
  | case6 => simp at h
  | case7 => simp at h

/-- The next response of a stream, or why there is none yet; what is then held;
and what is left of the stream. -/
def next (f : Framer) (s : Stream) : Except Failure Response × Framer × Stream :=
  let g := gather s.idle f.held.reverse s.segments
  let left : Stream := { s with segments := g.rest }
  let kept : Framer := ⟨g.back.reverse, g.blank⟩
  match g.outcome with
  | .fault e => (.error (.link e), kept, left)
  | .lost => (.error .lost, kept, left)
  | .oversized n => (.error (.breach (.oversized n)), kept, left)
  | .response =>
    let raw := g.back.reverse
    match Line.response? raw with
    | some r => (.ok r, empty, left)
    | none => (.error (.breach (.unreadable (Utf8.decode (Line.chomp raw)))), empty, left)

theorem size_next {f g : Framer} {s t : Stream} {r : Response}
    (h : f.next s = (.ok r, g, t)) : Stream.size t.segments < Stream.size s.segments := by
  unfold next at h
  simp only at h
  split at h
  · simp at h
  · simp at h
  · simp at h
  · rename_i hg
    have := size_gather hg
    split at h
    · simp only [Prod.mk.injEq] at h
      rw [← h.2.2]
      exact this
    · simp at h

/-- Whether a response ends the answer to a command or asks for more of it. -/
def isTerminal (r : Response) : Bool := r.isCompletion || r.isContinuation

def batchOnto (done : List Response) (f : Framer) (s : Stream) :
    Except Failure (List Response × Response) × Framer × Stream :=
  match _read : f.next s with
  | (.error e, g, t) => (.error e, g, t)
  | (.ok r, g, t) =>
    if isTerminal r then (.ok (done.reverse, r), g, t) else batchOnto (r :: done) g t
termination_by Stream.size s.segments
decreasing_by exact size_next _read

section

variable {f g : Framer} {s t : Stream} {r : Response}

theorem batchOnto_error {e : Failure} (fails : f.next s = (.error e, g, t)) (done : List Response) :
    batchOnto done f s = (.error e, g, t) := by
  rw [batchOnto, fails]

theorem batchOnto_terminal (read : f.next s = (.ok r, g, t)) (ends : isTerminal r = true)
    (done : List Response) : batchOnto done f s = (.ok (done.reverse, r), g, t) := by
  rw [batchOnto, read]
  simp [ends]

theorem batchOnto_untagged (read : f.next s = (.ok r, g, t)) (goes : isTerminal r = false)
    (done : List Response) : batchOnto done f s = batchOnto (r :: done) g t := by
  rw [batchOnto, read]
  simp [goes]

end

def batch (f : Framer) (s : Stream) :
    Except Failure (List Response × Response) × Framer × Stream :=
  batchOnto [] f s

end Framer

end ImapSession
