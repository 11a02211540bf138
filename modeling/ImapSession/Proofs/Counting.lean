import ImapSession.Proofs.Cellwise
import ImapSession.Proofs.Phrasing
import ImapSession.Proofs.Whole

/-!
Counts at the end of a line, where they should be refused and where they are no counts. A
literal that is too long is refused before any of it is read, as long as its length is a
64-bit word; a longer number announces nothing, and the line is a response. And a count is
looked for whatever the line is: the text of a status, or of a request to continue, is read
alone exactly if it does not end in one.
-/
namespace ImapSession

open Token (cr lf openCount closeCount)
open ImapSession.Stream (Cell tape said IsLine)

/-- A line is taken as it stands on the tape. -/
theorem Stream.line_ahead (idle : Idle) {s : List Segment} {line : List UInt8} {more : List Cell}
    (isLine : IsLine line) (h : tape s = said line ++ more) :
    ∃ left, Stream.line idle s = ⟨line, .complete, left⟩ ∧ tape left = more := by
  obtain ⟨front, rfl, clean⟩ := isLine
  have taken := Stream.line_onTape idle s
  rw [h, Stream.lineOf_closed idle more clean] at taken
  simp only [Stream.Taken.onTape, Stream.Reading.mk.injEq] at taken
  exact ⟨(Stream.line idle s).rest, by rw [← taken.1, ← taken.2.1], taken.2.2⟩

theorem Stream.isLine_crlf {text : List UInt8} (clean : lf ∉ text) : IsLine (text ++ [cr, lf]) :=
  ⟨text ++ [cr], by simp [Stream.lf, lf], by simpa [Stream.lf, lf, cr] using clean⟩

namespace Framer

variable {s : Stream} {line : List UInt8} {more : List Cell}

/-- A line that announces nothing closes what was held in front of it. -/
theorem next_closed (f : Framer) (isLine : IsLine line) (h : tape s.segments = said line ++ more)
    (silent : announced (f.held ++ line) = none) : ∃ left,
    f.next s = ((Found.whole (f.held ++ line)).answer, empty, { s with segments := left }) ∧
      tape left = more := by
  obtain ⟨left, taken, rest⟩ := Stream.line_ahead s.idle isLine h
  have back : line.reverse ++ f.held.reverse = (f.held ++ line).reverse := List.reverse_append.symm
  have gathered : gather s.idle f.held.reverse s.segments =
      ⟨(f.held ++ line).reverse, 0, .response, left⟩ := by
    rw [← back]
    exact gather_silent taken (by rw [back]; exact silent)
  refine ⟨left, ?_, rest⟩
  rw [next_eq, gathered]
  simp only [conclude, List.reverse_reverse, Found.answer]
  cases Line.response? (f.held ++ line) <;> rfl

/-- A line that announces too long a literal is held behind what was held before. -/
theorem next_refused (f : Framer) {n : Nat} (isLine : IsLine line)
    (h : tape s.segments = said line ++ more) (count : announced (f.held ++ line) = some n)
    (large : maxLiteral < n) : ∃ left,
    f.next s = (.error (.breach (.oversized n)), ⟨f.held ++ line, 0⟩, { s with segments := left }) ∧
      tape left = more := by
  obtain ⟨left, taken, rest⟩ := Stream.line_ahead s.idle isLine h
  have back : line.reverse ++ f.held.reverse = (f.held ++ line).reverse := List.reverse_append.symm
  have gathered : gather s.idle f.held.reverse s.segments =
      ⟨(f.held ++ line).reverse, 0, .oversized n, left⟩ := by
    rw [announced] at count
    refine gather_finished ?_
    simp only [pass, taken, back, count, large, if_true]
  refine ⟨left, ?_, rest⟩
  rw [next_eq, gathered]
  simp only [conclude, List.reverse_reverse]

end Framer

/-- An untagged line that ends in a number between braces, behind a space. -/
structure Announcement where
  text : List UInt8
  digits : List UInt8
  clean : cr ∉ text ∧ lf ∉ text
  numeral : digits ≠ [] ∧ digits.all Ascii.isDigit

namespace Announcement

def content (a : Announcement) : List UInt8 :=
  Line.star :: Line.space :: (a.text ++ [Line.space]) ++ openCount :: (a.digits ++ [closeCount])

def bytes (a : Announcement) : List UInt8 := a.content ++ [cr, lf]

def length (a : Announcement) : Nat := Ascii.decimal a.digits

theorem lf_content (a : Announcement) : lf ∉ a.content := by
  have digits : lf ∉ a.digits := fun h => by
    have := List.all_eq_true.1 a.numeral.2 _ h
    simp [Ascii.isDigit, lf] at this
  have text := a.clean.2
  simp [content, lf, Line.star, Line.space, openCount, closeCount] at digits text ⊢
  exact ⟨text, digits⟩

/-- What is announced is decided by the number, whatever is held in front of the line. -/
theorem announced_bytes (a : Announcement) (held : List UInt8) :
    Framer.announced (held ++ a.bytes) = Framer.count? a.digits := by
  have openless : openCount ∉ a.digits.reverse := fun h => by
    have := List.all_eq_true.1 a.numeral.2 _ (List.mem_reverse.1 h)
    simp [Ascii.isDigit, openCount] at this
  have back : (held ++ a.bytes).reverse = lf :: cr :: closeCount :: (a.digits.reverse ++ openCount ::
      (held ++ Line.star :: Line.space :: (a.text ++ [Line.space])).reverse) := by
    simp [bytes, content]
  rw [Framer.announced, back, Framer.announced_counted _ openless, List.reverse_reverse]

/-- An untagged line that ends in a number between braces is always a response by itself. -/
theorem response_bytes (a : Announcement) : ∃ r, Line.response? a.bytes = some r := by
  have accepted : Line.Accepted a.content := .inr (.inl ⟨_, rfl⟩)
  obtain ⟨m, made⟩ := Option.isSome_iff_exists.1 (Line.accepted_iff.2 accepted)
  exact ⟨⟨m, a.bytes⟩, by rw [Line.response?, bytes, Framer.chomp_crlf, made]; rfl⟩

end Announcement

namespace Framer

/-- The length is refused: the line is held and nothing else, and nothing behind it is taken. -/
def Refuses (f : Framer) (a : Announcement) (s : Stream) (more : List Cell) : Prop :=
  ∃ left, f.next s = (.error (.breach (.oversized a.length)), ⟨f.held ++ a.bytes, 0⟩,
    { s with segments := left }) ∧ tape left = more

/-- A literal that is longer than may be is refused, whatever is held in front of the line and
whatever comes behind it, exactly if its length is a 64-bit word. If it is not, the line is
given as a response, and what was announced is read as the next ones. -/
theorem next_oversized (a : Announcement) (large : maxLiteral < a.length) {s : Stream}
    {more : List Cell} (h : tape s.segments = said a.bytes ++ more) :
    ((∀ f : Framer, f.Refuses a s more) ↔ a.length ≤ maxCount) ∧
    (maxCount < a.length → ∃ r left, empty.next s = (.ok r, empty, { s with segments := left }) ∧
      r.raw = a.bytes ∧ tape left = more) := by
  have isLine : IsLine a.bytes := Stream.isLine_crlf a.lf_content
  have given : maxCount < a.length → ∃ r left,
      empty.next s = (.ok r, empty, { s with segments := left }) ∧ r.raw = a.bytes ∧
        tape left = more := by
    intro word
    have silent : announced (empty.held ++ a.bytes) = none := by
      rw [a.announced_bytes, count_large a.numeral.2 word]
    obtain ⟨r, read⟩ := a.response_bytes
    obtain ⟨left, next, rest⟩ := next_closed empty isLine h silent
    have answer : (Found.whole (empty.held ++ a.bytes)).answer = .ok r := by
      simp only [Found.answer, show empty.held ++ a.bytes = a.bytes from rfl, read]
    exact ⟨r, left, by rw [next, answer], raw_of_response read, rest⟩
  refine ⟨⟨fun refuses => ?_, fun word f => ?_⟩, given⟩
  · by_contra other
    obtain ⟨r, left, next, -, -⟩ := given (by omega)
    obtain ⟨left', refused, -⟩ := refuses empty
    rw [next] at refused
    cases refused
  · have count : announced (f.held ++ a.bytes) = some a.length := by
      rw [a.announced_bytes, count_decimal a.numeral.1 a.numeral.2 word]
      rfl
    exact next_refused f isLine h count large

/-- The least length that is refused, with more digits than it needs. -/
def padded : Announcement :=
  ⟨Utf8.encode "1 FETCH (BODY[]", Utf8.encode "00000000000000000000067108865", by decide, by decide⟩

theorem next_padded : maxLiteral < padded.length ∧ padded.length ≤ maxCount ∧
    Framer.Refuses ⟨Utf8.encode "* ", 0⟩ padded
      ⟨[.bytes padded.bytes, .bytes (Utf8.encode "ab"), .pause], .silent⟩
      [.byte 0x61, .byte 0x62, .pause] := by
  have large : maxLiteral < padded.length := by decide
  have word : padded.length ≤ maxCount := by decide
  let s : Stream := ⟨[.bytes padded.bytes, .bytes (Utf8.encode "ab"), .pause], .silent⟩
  have ahead : tape s.segments = said padded.bytes ++ [.byte 0x61, .byte 0x62, .pause] := by decide
  obtain ⟨refused, -⟩ := next_oversized padded large ahead
  exact ⟨large, word, refused.2 word _⟩

/-- The least number that is no 64-bit word. -/
def wordless : Announcement :=
  ⟨Utf8.encode "1 FETCH (BODY[]", Utf8.encode "18446744073709551616", by decide, by decide⟩

/-- The number is far too large for a literal, and yet its line is given as a response. -/
theorem next_wordless :
    let s : Stream := ⟨[.bytes (wordless.bytes ++ Utf8.encode "1 OK done\r\n")], .ended⟩
    maxLiteral < wordless.length ∧ (empty.next s).1.toOption.map Response.raw = some wordless.bytes ∧
      ¬ Framer.Refuses empty wordless s (said (Utf8.encode "1 OK done\r\n")) := by
  intro s
  have raw : (empty.next s).1.toOption.map Response.raw = some wordless.bytes := by decide +kernel
  refine ⟨by decide, raw, ?_⟩
  rintro ⟨left, refused, -⟩
  rw [refused] at raw
  cases raw

end Framer

namespace Line

/-- Lines that end in free text: requests to continue, and conditions with or without a tag. -/
inductive Remark : List UInt8 → Prop
  | continuation (body : List UInt8) : Remark (plus :: body)
  | untagged {body after : List UInt8} {status : Status} (opens : Opens status body after) :
      Remark (star :: space :: body)
  | completion {tag body after : List UInt8} {status : Status} (some : tag ≠ [])
      (all : ∀ b ∈ tag, isTagByte b = true) (opens : Opens status body after) :
      Remark (tag ++ space :: body)

/-- Lines of free text are read, and not as data. -/
theorem Remark.message {line : List UInt8} (remark : Remark line) :
    ∃ m, messageOf? line = some m ∧ ∀ tokens, m ≠ .data tokens := by
  have condition : ∀ {status body after}, Opens status body after →
      ∃ c, conditionOf? body = some c := by
    intro status body after opens
    cases made : conditionOf? body with
    | some c => exact ⟨c, rfl⟩
    | none => exact absurd opens (conditionOf_none.1 made _ _)
  have starred : ∀ {status body after}, Opens status body after →
      ∃ m, messageOf? (star :: space :: body) = some m ∧ ∀ tokens, m ≠ .data tokens := by
    intro status body after opens
    obtain ⟨c, made⟩ := condition opens
    refine ⟨.untagged c, ?_, by simp⟩
    rw [messageOf?, heading_of_heads (.untagged body)]
    simp only [made]
  cases remark with
  | continuation body =>
    refine ⟨.continuation (payload body), ?_, by simp⟩
    rw [messageOf?, heading_of_heads (.continuation body)]
  | untagged opens => exact starred opens
  | @completion tag body after status some all opens =>
    by_cases other : tag = [star]
    · subst other
      exact starred opens
    · obtain ⟨c, made⟩ := condition opens
      refine ⟨.completion (Utf8.decode tag) c, ?_, by simp⟩
      rw [messageOf?, heading_of_heads (.tagged body some other all)]
      simp only [made, Option.map_some]

end Line

namespace Framer

/-- What is given as a response announces nothing. -/
theorem announced_given {f g : Framer} {s t : Stream} {r : Response} (h : f.next s = (.ok r, g, t)) :
    announced r.raw = none := by
  obtain ⟨taken, -, accounted⟩ := next_accounted f s
  rw [h] at accounted
  obtain ⟨raw, -, ending⟩ := accounted
  rw [raw]
  cases ending with
  | response counted isLine silent => exact silent

/-- A line of free text is read alone, and nothing behind it is waited for or taken, exactly if
its text does not end in a count between braces. -/
theorem next_remark {line : List UInt8} (remark : Line.Remark line) (clean : lf ∉ line)
    {s : Stream} {more : List Cell} (h : tape s.segments = said (line ++ [cr, lf]) ++ more) :
    (∃ r left, empty.next s = (.ok r, empty, { s with segments := left }) ∧
      r.raw = line ++ [cr, lf] ∧ Line.Says line r ∧ tape left = more) ↔ ¬ EndsInCount line := by
  constructor
  · rintro ⟨r, left, next, raw, -, -⟩ ⟨n, announces⟩
    have silent := announced_given next
    rw [raw, announced, announced_line.2 announces] at silent
    cases silent
  · intro silent
    obtain ⟨m, made, -⟩ := remark.message
    have read : Line.response? (line ++ [cr, lf]) = some ⟨m, line ++ [cr, lf]⟩ := by
      rw [Line.response?, chomp_crlf, made]
      rfl
    have whole : Response.Whole ⟨m, line ++ [cr, lf]⟩ :=
      whole_of_line (Stream.isLine_crlf clean) (announced_none silent) read
    obtain ⟨left, next, rest⟩ := next_whole whole h
    exact ⟨_, left, next, rfl, Line.says_of_message made, rest⟩

/-- A completion with a code, and a text with braces that hold no count. -/
theorem next_braces :
    let line := Utf8.encode "a1 no [ALERT] see \x7b3\x7d or \x7bthree\x7d"
    let s : Stream := ⟨[.bytes (line ++ [cr]), .bytes [lf], .pause], .ended⟩
    Line.Remark line ∧ ¬ EndsInCount line ∧ ∃ r left,
      empty.next s = (.ok r, empty, { s with segments := left }) ∧ r.raw = line ++ [cr, lf] ∧
        Line.Says line r ∧ tape left = [.pause] := by
  intro line s
  have opens : Line.Opens .no (Utf8.encode "no [ALERT] see \x7b3\x7d or \x7bthree\x7d")
      (Utf8.encode "[ALERT] see \x7b3\x7d or \x7bthree\x7d") :=
    Line.opens_iff.2 (by decide)
  have tagged : Utf8.encode "a1" ≠ [] := by decide
  have remark : Line.Remark line := .completion tagged (List.all_eq_true.1 (by decide)) opens
  have silent : ¬ EndsInCount line := by
    rintro ⟨n, announces⟩
    have counted : announced (line ++ [cr, lf]) = some n := announced_line.2 announces
    have none : announced (line ++ [cr, lf]) = none := by decide
    rw [none] at counted
    cases counted
  have ahead : tape s.segments = said (line ++ [cr, lf]) ++ [.pause] := by decide
  exact ⟨remark, silent, (next_remark remark (by decide) ahead).2 silent⟩

/-- A note that ends in a count: the line behind it is read as a part of the note. -/
theorem next_note :
    let line := Utf8.encode "* OK note \x7b3\x7d"
    let next := Utf8.encode "1 OK done\r\n"
    let s : Stream := ⟨[.bytes (line ++ [cr, lf] ++ next)], .ended⟩
    Line.Remark line ∧
      (empty.next s).1.toOption.map Response.raw = some (line ++ [cr, lf] ++ next) ∧
      ¬ ∃ r left, empty.next s = (.ok r, empty, { s with segments := left }) ∧
        r.raw = line ++ [cr, lf] ∧ Line.Says line r ∧ tape left = said next := by
  intro line next s
  have opens : Line.Opens .ok (Utf8.encode "OK note \x7b3\x7d") (Utf8.encode "note \x7b3\x7d") :=
    Line.opens_iff.2 (by decide)
  have raw : (empty.next s).1.toOption.map Response.raw = some (line ++ [cr, lf] ++ next) := by
    decide +kernel
  refine ⟨.untagged opens, raw, ?_⟩
  rintro ⟨r, left, made, short, -, -⟩
  rw [made] at raw
  have same : r.raw = line ++ [cr, lf] ++ next := by simpa [Except.toOption] using raw
  rw [short] at same
  exact absurd same (by decide)

end Framer

end ImapSession
