/-!
The bytes on their way to the client, as they will be delivered: in pieces, with
faults and temporary ends between them. How the bytes are cut into pieces is
kept here, and no reader below lets it show. A fault of kind `interrupted` is
passed over by every reader; any other is delivered once.
-/
namespace ImapSession

inductive FaultKind where
  | timedOut | wouldBlock | connectionReset | connectionRefused | connectionAborted
  | brokenPipe | notConnected | unexpectedEof | interrupted | invalidInput | other
  deriving DecidableEq, Repr

def FaultKind.all : List FaultKind := [.timedOut, .wouldBlock, .connectionReset,
  .connectionRefused, .connectionAborted, .brokenPipe, .notConnected, .unexpectedEof,
  .interrupted, .invalidInput, .other]

def FaultKind.name : FaultKind → String
  | .timedOut => "TimedOut"
  | .wouldBlock => "WouldBlock"
  | .connectionReset => "ConnectionReset"
  | .connectionRefused => "ConnectionRefused"
  | .connectionAborted => "ConnectionAborted"
  | .brokenPipe => "BrokenPipe"
  | .notConnected => "NotConnected"
  | .unexpectedEof => "UnexpectedEof"
  | .interrupted => "Interrupted"
  | .invalidInput => "InvalidInput"
  | .other => "Other"

structure Fault where
  kind : FaultKind
  text : String
  deriving DecidableEq, Repr

inductive Segment where
  | bytes (data : List UInt8)
  | fault (fault : Fault)
  | pause
  deriving DecidableEq, Repr

/-- What a reader meets once every segment is used up, and keeps meeting. -/
inductive Idle where
  | ended
  | silent
  deriving DecidableEq, Repr

structure Stream where
  segments : List Segment
  idle : Idle
  deriving DecidableEq, Repr

namespace Stream

/-- How a reader stopped: it had what it wanted, or the bytes ended, or a fault. -/
inductive Stop where
  | complete
  | ended
  | fault (fault : Fault)
  deriving DecidableEq, Repr

/-- What a reader took, how it stopped, and what it left. -/
structure Taken where
  bytes : List UInt8
  stop : Stop
  rest : List Segment
  deriving DecidableEq, Repr

/-- Nothing came for as long as the reader was willing to wait. -/
def silence : Fault := ⟨.wouldBlock, "Resource temporarily unavailable (os error 11)"⟩

def whenIdle : Idle → Stop
  | .ended => .ended
  | .silent => .fault silence

def lf : UInt8 := 0x0a

/-- Take bytes up to and including the first LF. -/
def line (idle : Idle) : List Segment → Taken
  | [] => ⟨[], whenIdle idle, []⟩
  | .bytes data :: rest =>
    match data.dropWhile (· ≠ lf) with
    | [] =>
      let t := line idle rest
      ⟨data ++ t.bytes, t.stop, t.rest⟩
    | _ :: left => ⟨data.takeWhile (· ≠ lf) ++ [lf], .complete, .bytes left :: rest⟩
  | .fault f :: rest => if f.kind = .interrupted then line idle rest else ⟨[], .fault f, rest⟩
  | .pause :: rest => ⟨[], .ended, rest⟩

/-- Take exactly `n` bytes. Taking none touches nothing. -/
def exactly (idle : Idle) : Nat → List Segment → Taken
  | 0, segments => ⟨[], .complete, segments⟩
  | _ + 1, [] => ⟨[], whenIdle idle, []⟩
  | n + 1, .bytes data :: rest =>
    if n + 1 ≤ data.length then
      ⟨data.take (n + 1), .complete, .bytes (data.drop (n + 1)) :: rest⟩
    else
      let t := exactly idle (n + 1 - data.length) rest
      ⟨data ++ t.bytes, t.stop, t.rest⟩
  | n + 1, .fault f :: rest =>
    if f.kind = .interrupted then exactly idle (n + 1) rest else ⟨[], .fault f, rest⟩
  | _ + 1, .pause :: rest => ⟨[], .ended, rest⟩

def size : List Segment → Nat
  | [] => 0
  | .bytes data :: rest => data.length + size rest
  | .fault _ :: rest => size rest
  | .pause :: rest => size rest

theorem length_takeWhile_add_dropWhile (p : α → Bool) (l : List α) :
    (l.takeWhile p).length + (l.dropWhile p).length = l.length := by
  rw [← List.length_append, List.takeWhile_append_dropWhile]

/-- A line takes as many bytes off the stream as it holds. -/
theorem size_line (idle : Idle) (s : List Segment) :
    (line idle s).bytes.length + size (line idle s).rest = size s := by
  fun_induction line idle s with
  | case1 => rfl
  | case2 data rest h t ih => simp only [List.length_append, size, ← ih, t]; omega
  | case3 data rest b left h =>
    have := length_takeWhile_add_dropWhile (· ≠ lf) data
    rw [h] at this
    simp only [List.length_append, List.length_cons, List.length_nil, size] at this ⊢
    omega
  | case4 f rest h ih => simpa [size] using ih
  | case5 => simp [size]
  | case6 => simp [size]

/-- A complete line is never empty: it ends in its LF. -/
theorem line_ne_nil {idle : Idle} {s : List Segment} (h : (line idle s).stop = .complete) :
    0 < (line idle s).bytes.length := by
  fun_induction line idle s with
  | case1 => cases idle <;> simp [whenIdle] at h
  | case2 data rest hd t ih =>
    have := ih h
    simp only [List.length_append, t]
    omega
  | case3 data rest b left hd => simp
  | case4 f rest hf ih => exact ih h
  | case5 => simp at h
  | case6 => simp at h

/-- Taking some bytes takes as many off the stream as it gives. -/
theorem size_exactly (idle : Idle) (n : Nat) (s : List Segment) :
    (exactly idle n s).bytes.length + size (exactly idle n s).rest = size s := by
  fun_induction exactly idle n s with
  | case1 => simp
  | case2 => rfl
  | case3 n data rest h =>
    simp only [List.length_take, List.length_drop, size]; omega
  | case4 n data rest h t ih => simp only [List.length_append, size, ← ih, t]; omega
  | case5 n f rest h ih => simpa [size] using ih
  | case6 => simp [size]
  | case7 => simp [size]

end Stream

end ImapSession
