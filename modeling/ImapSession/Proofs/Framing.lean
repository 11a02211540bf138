import ImapSession.Proofs.Announcing
import ImapSession.Proofs.Delivery

/-!
Where one response ends and the next begins. The framer is followed over a data
line with any number of literals, and gives exactly this line as long as what
comes last in it does not read as one more announcement. The last literal is no
exception: its own bytes, with the text behind them, can announce.
-/
namespace ImapSession

open Token (openCount closeCount cr lf)

/-- A literal of a data line, with the text behind it up to the next literal or
up to the end of the line. -/
structure Literal where
  digits : List UInt8
  data : List UInt8
  text : List UInt8
  numeral : digits ≠ [] ∧ digits.all Ascii.isDigit
  counted : Ascii.decimal digits = data.length
  fits : data.length ≤ Framer.maxLiteral
  clean : cr ∉ text ∧ lf ∉ text

/-- An untagged line: what stands before its first literal, and its literals. -/
structure DataLine where
  opening : List UInt8
  literals : List Literal
  clean : cr ∉ opening ∧ lf ∉ opening

namespace Literal

def announcement (l : Literal) : List UInt8 := openCount :: (l.digits ++ [closeCount])

def bytes (l : Literal) : List UInt8 := l.announcement ++ [cr, lf] ++ l.data ++ l.text

theorem count (l : Literal) : Framer.count? l.digits = some l.data.length := by
  have small : Ascii.decimal l.digits ≤ Framer.maxCount := by
    have := l.fits
    rw [l.counted]
    simp only [Framer.maxLiteral, Framer.maxCount] at *
    omega
  rw [Framer.count_decimal l.numeral.1 l.numeral.2 small, l.counted]

theorem lf_announcement (l : Literal) : lf ∉ l.announcement := by
  have := Framer.lf_not_mem l.count
  simp [announcement, lf, openCount, closeCount] at this ⊢
  exact this

theorem announces (l : Literal) (before : List UInt8) :
    Framer.Announces (before ++ l.announcement) l.data.length :=
  ⟨before, l.digits, rfl, l.count⟩

end Literal

namespace DataLine

def head (d : DataLine) : List UInt8 := Line.star :: Line.space :: d.opening

def content (d : DataLine) : List UInt8 := d.head ++ d.literals.flatMap Literal.bytes

def bytes (d : DataLine) : List UInt8 := d.content ++ [cr, lf]

/-- What comes last: all of a line without literals, otherwise the data of the
last literal and the text behind it. -/
def ending (d : DataLine) : List UInt8 :=
  match d.literals.getLast? with
  | none => d.head
  | some l => l.data ++ l.text

theorem lf_head (d : DataLine) : lf ∉ d.head := by
  have := d.clean.2
  simp [head, lf, Line.star, Line.space] at this ⊢
  exact this

/-- Only what comes last can make the line end in a count. -/
theorem announces_content (d : DataLine) {n : Nat} :
    Framer.Announces d.content n ↔ Framer.Announces d.ending n := by
  rcases List.eq_nil_or_concat d.literals with h | ⟨ls, l, h⟩
  · simp [content, ending, h]
  · have hc : d.content = (d.head ++ ls.flatMap Literal.bytes ++ l.announcement ++ [cr]) ++
        lf :: (l.data ++ l.text) := by
      simp [content, h, Literal.bytes]
    have he : d.ending = l.data ++ l.text := by simp [ending, h]
    rw [hc, he, Framer.announces_after]

end DataLine

namespace Line

@[simp] theorem dropLastIf_closed (b : UInt8) (front : List UInt8) :
    dropLastIf b (front ++ [b]) = front := by
  simp [dropLastIf]

@[simp] theorem chomp_closed (front : List UInt8) :
    chomp (front ++ [lf]) = dropLastIf cr front := by
  simp [chomp]

end Line

namespace Framer

/-- A line that announces nothing ends the response. -/
theorem gather_silent {idle : Idle} {back line : List UInt8} {s left : List Segment}
    (h : Stream.line idle s = ⟨line, .complete, left⟩)
    (silent : announcedBack (line.reverse ++ back) = none) :
    gather idle back s = ⟨line.reverse ++ back, 0, .response, left⟩ := by
  rw [gather]
  split
  · rename_i stopped
    rw [h] at stopped
    cases stopped
  · rename_i stopped
    rw [h] at stopped
    cases stopped
  · simp only [h, silent]

/-- A line that announces a literal is gathered together with it. -/
theorem gather_counted {idle : Idle} {back line data : List UInt8} {s behind left : List Segment}
    {n : Nat} (h : Stream.line idle s = ⟨line, .complete, behind⟩)
    (announced : announcedBack (line.reverse ++ back) = some n) (fits : n ≤ maxLiteral)
    (taken : Stream.exactly idle n behind = ⟨data, .complete, left⟩) :
    gather idle back s = gather idle (data.reverse ++ (line.reverse ++ back)) left := by
  rw [gather]
  split
  · rename_i stopped
    rw [h] at stopped
    cases stopped
  · rename_i stopped
    rw [h] at stopped
    cases stopped
  · simp only [h, announced, if_neg (Nat.not_lt.2 fits), taken]

/-- What is held is kept backwards, and so a line is put in front of it. -/
theorem back_crlf (held text : List UInt8) : (text ++ [cr, lf]).reverse ++ held.reverse =
    (held ++ text ++ [cr, lf]).reverse := by
  simp

/-- The line up to the next line end is taken. -/
theorem line_crlf (idle : Idle) {text b : List UInt8} {s : List Segment}
    (smooth : Stream.Smooth s) (clean : lf ∉ text)
    (h : Stream.delivered s = text ++ cr :: lf :: b) :
    ∃ left, Stream.line idle s = ⟨text ++ [cr, lf], .complete, left⟩ ∧
      Stream.delivered left = b ∧ Stream.Smooth left := by
  have parted : Stream.delivered s = (text ++ [cr]) ++ Stream.lf :: b := by
    simpa [Stream.lf, lf] using h
  have clean' : Stream.lf ∉ text ++ [cr] := by
    simpa [Stream.lf, lf, cr] using clean
  obtain ⟨left, hl, hb, hs⟩ := Stream.line_of_delivered idle smooth parted clean'
  exact ⟨left, by simp [hl, Stream.lf, lf], hb, hs⟩

theorem gather_last (idle : Idle) {held text b : List UInt8} {s : List Segment}
    (smooth : Stream.Smooth s) (clean : lf ∉ text)
    (h : Stream.delivered s = text ++ cr :: lf :: b) (silent : ¬ EndsInCount (held ++ text)) :
    ∃ left, gather idle held.reverse s =
        ⟨(held ++ text ++ [cr, lf]).reverse, 0, .response, left⟩ ∧
      Stream.delivered left = b ∧ Stream.Smooth left := by
  obtain ⟨left, hl, hb, hs⟩ := line_crlf idle smooth clean h
  refine ⟨left, ?_, hb, hs⟩
  have nothing := announced_none silent
  rw [← back_crlf] at nothing ⊢
  exact gather_silent hl nothing

theorem gather_literal (idle : Idle) {held text data b : List UInt8} {s : List Segment}
    (smooth : Stream.Smooth s) (clean : lf ∉ text)
    (h : Stream.delivered s = text ++ cr :: lf :: (data ++ b))
    (announced : Announces (held ++ text) data.length) (fits : data.length ≤ maxLiteral) :
    ∃ left, gather idle held.reverse s =
        gather idle (held ++ text ++ [cr, lf] ++ data).reverse left ∧
      Stream.delivered left = b ∧ Stream.Smooth left := by
  obtain ⟨mid, hl, hd, hs⟩ := line_crlf idle smooth clean h
  obtain ⟨left, ht, hb, hs⟩ := Stream.exactly_of_delivered idle hs hd
  have counted := announced_line.2 announced
  rw [← back_crlf] at counted
  refine ⟨left, ?_, hb, hs⟩
  rw [gather_counted hl counted fits ht, back_crlf, ← List.reverse_append]

/-- What is gathered grows with every line. -/
theorem length_gather {idle : Idle} {back : List UInt8} {s : List Segment}
    (h : (gather idle back s).outcome = .response) :
    back.length < (gather idle back s).back.length := by
  fun_induction gather idle back s with
  | case1 | case2 | case4 | case6 | case7 => simp at h
  | case3 back s l back' ends hn =>
    have := Stream.line_ne_nil ends
    simp only [back', l, List.length_append, List.length_reverse]
    omega
  | case5 back s l back' ends n hn hle d hd ih =>
    have grown : (d.bytes.reverse ++ back').length =
        d.bytes.length + (l.bytes.length + back.length) := by simp [back']
    have := ih h
    omega

/-- After a line that announces a literal, the response goes on. -/
theorem gather_announced (idle : Idle) {held text b : List UInt8} {s : List Segment} {n : Nat}
    (smooth : Stream.Smooth s) (clean : lf ∉ text)
    (h : Stream.delivered s = text ++ cr :: lf :: b) (announced : Announces (held ++ text) n)
    (done : (gather idle held.reverse s).outcome = .response) :
    (held ++ text ++ [cr, lf]).length < (gather idle held.reverse s).back.length := by
  obtain ⟨left, hl, -, -⟩ := line_crlf idle smooth clean h
  rw [gather] at done ⊢
  simp only [hl, back_crlf, announced_line.2 announced] at done ⊢
  split at done
  · simp at done
  · simp at done
  · split at done
    · simp at done
    · rename_i large
      simp only [if_neg large]
      split at done
      · have := length_gather done
        simp only [List.length_append, List.length_reverse] at this ⊢
        omega
      · simp at done
      · simp at done

/-- All literals of a line are gathered, and what is left of it is its last text. -/
theorem gather_literals (idle : Idle) (ls : List Literal) {held text b : List UInt8}
    {s : List Segment} (smooth : Stream.Smooth s) (clean : lf ∉ text)
    (h : Stream.delivered s = text ++ (ls.flatMap Literal.bytes ++ cr :: lf :: b)) :
    ∃ before last left, gather idle held.reverse s = gather idle before.reverse left ∧
      before ++ last = held ++ text ++ ls.flatMap Literal.bytes ∧ lf ∉ last ∧
      Stream.delivered left = last ++ cr :: lf :: b ∧ Stream.Smooth left := by
  induction ls generalizing held text s with
  | nil => exact ⟨held, text, s, rfl, by simp, clean, by simpa using h, smooth⟩
  | cons l ls ih =>
    have clean' : lf ∉ text ++ l.announcement := by simp [clean, l.lf_announcement]
    have first : Stream.delivered s = (text ++ l.announcement) ++ cr :: lf ::
        (l.data ++ (l.text ++ (ls.flatMap Literal.bytes ++ cr :: lf :: b))) := by
      simpa [Literal.bytes] using h
    have announced : Announces (held ++ (text ++ l.announcement)) l.data.length := by
      simpa using l.announces (held ++ text)
    obtain ⟨behind, hg, hd, hs⟩ := gather_literal idle smooth clean' first announced l.fits
    obtain ⟨before, last, left, hg', hl, hc, hb, hs'⟩ := ih hs l.clean.2 hd
    exact ⟨before, last, left, hg.trans hg', by simpa [Literal.bytes] using hl, hc, hb, hs'⟩

/-- A line end is dropped whole. -/
@[simp] theorem chomp_crlf (bytes : List UInt8) : Line.chomp (bytes ++ [cr, lf]) = bytes := by
  have parts : bytes ++ [cr, lf] = bytes ++ [cr] ++ [lf] := by simp
  rw [parts, Line.chomp_closed, Line.dropLastIf_closed]

theorem raw_of_response {raw : List UInt8} {r : Response} (h : Line.response? raw = some r) :
    r.raw = raw := by
  obtain ⟨m, -, rfl⟩ := Option.map_eq_some_iff.1 h
  rfl

/-- An untagged line always reads as a response. -/
theorem response_dataLine (d : DataLine) : ∃ r, Line.response? d.bytes = some r := by
  have heading : Line.heading? d.content =
      some (.untagged, d.opening ++ d.literals.flatMap Literal.bytes) := by
    simp [DataLine.content, DataLine.head, Line.heading?, Line.star, Line.plus]
  have message : ∃ m, Line.messageOf? d.content = some m := by
    rw [Line.messageOf?, heading]
    dsimp only
    cases hc : Line.conditionOf? (d.opening ++ d.literals.flatMap Literal.bytes) with
    | none => exact ⟨_, rfl⟩
    | some c => exact ⟨_, rfl⟩
  obtain ⟨m, hm⟩ := message
  exact ⟨⟨m, d.bytes⟩, by rw [Line.response?, DataLine.bytes, chomp_crlf, hm]; rfl⟩

/-- A response is made of all that was gathered. -/
theorem raw_of_next {f g : Framer} {s t : Stream} {r : Response} (h : f.next s = (.ok r, g, t)) :
    (gather s.idle f.held.reverse s.segments).outcome = .response ∧
      r.raw = (gather s.idle f.held.reverse s.segments).back.reverse := by
  unfold next at h
  simp only at h
  split at h
  · simp at h
  · simp at h
  · simp at h
  · rename_i done
    split at h
    · rename_i r' hr
      simp only [Prod.mk.injEq, Except.ok.injEq] at h
      rw [← h.1]
      exact ⟨done, raw_of_response hr⟩
    · simp at h

/-- The framer gives this response, holds nothing after it, and has taken its
bytes from what was on its way and no others. -/
def Frames (s : Stream) (raw : List UInt8) (t : Stream) : Prop :=
  ∃ r, empty.next s = (.ok r, empty, t) ∧ r.raw = raw

/-- The last line of a data line is reached with all before it gathered. -/
theorem gather_dataLine (idle : Idle) (d : DataLine) {b : List UInt8} {s : List Segment}
    (smooth : Stream.Smooth s) (h : Stream.delivered s = d.bytes ++ b) :
    ∃ before last left, gather idle [] s = gather idle before.reverse left ∧
      before ++ last = d.content ∧ lf ∉ last ∧
      Stream.delivered left = last ++ cr :: lf :: b ∧ Stream.Smooth left := by
  have first : Stream.delivered s =
      d.head ++ (d.literals.flatMap Literal.bytes ++ cr :: lf :: b) := by
    simpa [DataLine.bytes, DataLine.content] using h
  simpa [DataLine.content] using
    @gather_literals idle d.literals [] d.head b s smooth d.lf_head first

theorem frames_dataLine (d : DataLine) {rest : List UInt8} {s : Stream}
    (smooth : Stream.Smooth s.segments) (h : Stream.delivered s.segments = d.bytes ++ rest)
    (silent : ¬ EndsInCount d.ending) :
    ∃ t, Frames s d.bytes t ∧ Stream.delivered t.segments = rest ∧ Stream.Smooth t.segments := by
  obtain ⟨before, last, behind, hg, hcontent, clean, hd, hs⟩ :=
    gather_dataLine s.idle d smooth h
  have silent' : ¬ EndsInCount (before ++ last) := by
    rw [hcontent]
    rintro ⟨n, hn⟩
    exact silent ⟨n, d.announces_content.1 hn⟩
  obtain ⟨left, hl, hr, hs'⟩ := gather_last s.idle hs clean hd silent'
  obtain ⟨r, hresponse⟩ := response_dataLine d
  have gathered : gather s.idle empty.held.reverse s.segments =
      ⟨d.bytes.reverse, 0, .response, left⟩ := by
    rw [show empty.held.reverse = [] from rfl, hg, hl, hcontent, DataLine.bytes]
  refine ⟨{ s with segments := left }, ⟨r, ?_, raw_of_response hresponse⟩, hr, hs'⟩
  simp only [next, gathered, List.reverse_reverse, hresponse]

theorem not_frames_dataLine (d : DataLine) {rest : List UInt8} {s t : Stream}
    (smooth : Stream.Smooth s.segments) (h : Stream.delivered s.segments = d.bytes ++ rest)
    (count : EndsInCount d.ending) : ¬ Frames s d.bytes t := by
  rintro ⟨r, hnext, hraw⟩
  obtain ⟨before, last, behind, hg, hcontent, clean, hd, hs⟩ :=
    gather_dataLine s.idle d smooth h
  obtain ⟨n, hn⟩ := count
  have announced : Announces (before ++ last) n := by
    rw [hcontent]
    exact d.announces_content.2 hn
  obtain ⟨done, hback⟩ := raw_of_next hnext
  rw [show empty.held.reverse = [] from rfl, hg] at done hback
  have longer := gather_announced s.idle hs clean hd announced done
  rw [hcontent, ← DataLine.bytes, ← hraw, hback, List.length_reverse] at longer
  exact Nat.lt_irrefl _ longer

/-- Responses read one after the other, with nothing held between them. -/
inductive Reads : Stream → List Response → Stream → Prop
  | none (s : Stream) : Reads s [] s
  | one {s t u : Stream} {r : Response} {rs : List Response}
      (first : empty.next s = (.ok r, empty, t)) (others : Reads t rs u) : Reads s (r :: rs) u

/-- Lines of data are read one by one, each whole and no byte more, exactly when
none of them has a count at its end. -/
theorem reads_dataLines (ds : List DataLine) {rest : List UInt8} {s : Stream}
    (smooth : Stream.Smooth s.segments)
    (h : Stream.delivered s.segments = ds.flatMap DataLine.bytes ++ rest) :
    (∃ rs t, Reads s rs t ∧ rs.map Response.raw = ds.map DataLine.bytes ∧
      Stream.delivered t.segments = rest) ↔ ∀ d ∈ ds, ¬ EndsInCount d.ending := by
  induction ds generalizing s with
  | nil =>
    constructor
    · simp
    · intro _
      exact ⟨[], s, .none s, rfl, by simpa using h⟩
  | cons d ds ih =>
    have front : Stream.delivered s.segments =
        d.bytes ++ (ds.flatMap DataLine.bytes ++ rest) := by simpa using h
    constructor
    · rintro ⟨rs, u, reads, raws, hu⟩
      cases reads with
      | none => simp at raws
      | @one _ t _ r rs first others =>
        simp only [List.map_cons, List.cons.injEq] at raws
        have silent : ¬ EndsInCount d.ending := fun count =>
          not_frames_dataLine d smooth front count ⟨r, first, raws.1⟩
        obtain ⟨t', ⟨r', hnext, -⟩, ht, hs⟩ := frames_dataLine d smooth front silent
        obtain rfl : t = t' := by
          rw [first] at hnext
          simp only [Prod.mk.injEq] at hnext
          exact hnext.2.2
        intro e he
        rcases List.mem_cons.1 he with rfl | he
        · exact silent
        · exact (ih hs ht).1 ⟨rs, u, others, raws.2, hu⟩ e he
    · intro silent
      obtain ⟨t, ⟨r, hnext, hraw⟩, ht, hs⟩ :=
        frames_dataLine d smooth front (silent d (by simp))
      obtain ⟨rs, u, others, raws, hu⟩ := (ih hs ht).2 fun e he => silent e (by simp [he])
      exact ⟨r :: rs, u, .one hnext others, by simp [hraw, raws], hu⟩

def three (data : List UInt8) (h : data.length = 3) : Literal where
  digits := [0x33]
  data
  text := []
  numeral := by decide
  counted := by rw [h]; rfl
  fits := by rw [h]; decide
  clean := by decide

def threeLine (data : List UInt8) (h : data.length = 3) : DataLine := ⟨[], [three data h], by decide⟩

/-- Two lines that arrive in pieces of another size. -/
theorem reads_threeLines :
    (∃ rs t, Reads ⟨[.bytes (Utf8.encode "* \x7b3\x7d\r"), .fault ⟨.interrupted, ""⟩,
        .bytes (Utf8.encode "\nabc\r\n* \x7b3\x7d\r\n\x7d\r\n\r\n* ")], .ended⟩ rs t ∧
      rs.map Response.raw =
        [threeLine [0x61, 0x62, 0x63] rfl, threeLine [0x7d, cr, lf] rfl].map DataLine.bytes ∧
      Stream.delivered t.segments = Utf8.encode "* ") ↔
    ∀ d ∈ [threeLine [0x61, 0x62, 0x63] rfl, threeLine [0x7d, cr, lf] rfl],
      ¬ EndsInCount d.ending :=
  reads_dataLines _ (by simp [Stream.isSmooth]) (by decide)

/-- The data `{5}` of a literal announces another one: the next response is
read as a part of this one. -/
theorem misread_threeLine :
    let line := threeLine [openCount, 0x35, closeCount] rfl
    let s : Stream := ⟨[.bytes (line.bytes ++ Utf8.encode "* OK hi\r\n")], .ended⟩
    ¬ EndsInCount (three [openCount, 0x35, closeCount] rfl).text ∧ (∀ t, ¬ Frames s line.bytes t) ∧
      ∃ t, Frames s (line.bytes ++ Utf8.encode "* OK hi\r\n") t := by
  intro line s
  have count : EndsInCount line.ending := ⟨5, [], [0x35], rfl, by decide⟩
  have raw : (empty.next s).1.toOption.map Response.raw =
      some (line.bytes ++ Utf8.encode "* OK hi\r\n") := by decide +kernel
  have held : (empty.next s).2.1 = empty := by decide +kernel
  have smooth : Stream.Smooth s.segments := by simp [s, Stream.isSmooth]
  have sent : Stream.delivered s.segments = line.bytes ++ Utf8.encode "* OK hi\r\n" := by simp [s]
  refine ⟨?_, fun t => not_frames_dataLine line smooth sent count, ?_⟩
  · rintro ⟨n, before, digits, h, -⟩
    simp [three] at h
  · rcases next : empty.next s with ⟨outcome, g, t⟩
    rw [next] at raw held
    obtain rfl : g = empty := held
    cases outcome with
    | error e => simp [Except.toOption] at raw
    | ok r => exact ⟨t, r, next, by simpa [Except.toOption] using raw⟩

end Framer

end ImapSession
