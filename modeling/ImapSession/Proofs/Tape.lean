import ImapSession.Proofs.Delivery

/-!
A stream as a reader comes upon it: one byte after the other, and between them the faults
and the temporary ends that stop a reader. Neither the cuts between segments nor the
interruptions are on this tape, and what readers take is a function of it. Of a stream
that is smooth, the tape is the bytes it delivers.
-/
namespace ImapSession

namespace Stream

/-- What a reader can come upon. -/
inductive Cell where
  | byte (b : UInt8)
  | fault (fault : Fault)
  | pause
  deriving DecidableEq, Repr

/-- Bytes, and nothing between them. -/
def said (bytes : List UInt8) : List Cell := bytes.map Cell.byte

@[simp] theorem said_nil : said [] = [] := rfl
@[simp] theorem said_cons (b : UInt8) (bytes : List UInt8) :
    said (b :: bytes) = .byte b :: said bytes := rfl
@[simp] theorem said_append (a b : List UInt8) : said (a ++ b) = said a ++ said b :=
  List.map_append

theorem said_inj {a b : List UInt8} (h : said a = said b) : a = b :=
  (List.map_inj_right fun _ _ => Cell.byte.inj).1 h

def tape : List Segment → List Cell
  | [] => []
  | .bytes data :: rest => said data ++ tape rest
  | .fault f :: rest => if f.kind = .interrupted then tape rest else .fault f :: tape rest
  | .pause :: rest => .pause :: tape rest

@[simp] theorem tape_nil : tape [] = [] := rfl
@[simp] theorem tape_bytes (data : List UInt8) (rest : List Segment) :
    tape (.bytes data :: rest) = said data ++ tape rest := rfl
@[simp] theorem tape_pause (rest : List Segment) :
    tape (.pause :: rest) = .pause :: tape rest :=
  rfl

theorem tape_interrupted {f : Fault} (rest : List Segment) (h : f.kind = .interrupted) :
    tape (.fault f :: rest) = tape rest := by simp [tape, h]

theorem tape_fault {f : Fault} (rest : List Segment) (h : f.kind ≠ .interrupted) :
    tape (.fault f :: rest) = .fault f :: tape rest := by simp [tape, h]

/-- A stream on which nothing but bytes is come upon is a smooth one. -/
theorem tape_eq_said {s : List Segment} {b : List UInt8} :
    tape s = said b ↔ Smooth s ∧ delivered s = b := by
  induction s generalizing b with
  | nil =>
    cases b with
    | nil => simp
    | cons x b => simp
  | cons segment rest ih =>
    cases segment with
    | bytes data =>
      constructor
      · intro h
        obtain ⟨u, v, hb, hu, hv⟩ := List.map_eq_append_iff.1 h.symm
        obtain rfl := said_inj hu
        obtain ⟨smooth, rfl⟩ := ih.1 hv.symm
        exact ⟨by simp [isSmooth, smooth], hb.symm⟩
      · rintro ⟨smooth, rfl⟩
        have tail := ih.2 ⟨((smooth_cons _ _).1 smooth).2, rfl⟩
        simp [tail]
    | fault f =>
      by_cases hf : f.kind = .interrupted
      · rw [tape_interrupted rest hf, ih]
        simp [isSmooth, hf]
      · rw [tape_fault rest hf]
        constructor
        · intro h
          cases b <;> simp at h
        · rintro ⟨smooth, -⟩
          simp [isSmooth, hf] at smooth
    | pause =>
      constructor
      · intro h
        cases b <;> simp at h
      · rintro ⟨smooth, -⟩
        simp [isSmooth] at smooth

theorem tape_of_smooth {s : List Segment} (smooth : Smooth s) : tape s = said (delivered s) :=
  tape_eq_said.2 ⟨smooth, rfl⟩

def heard : List Cell → List UInt8
  | [] => []
  | .byte b :: rest => b :: heard rest
  | .fault _ :: rest => heard rest
  | .pause :: rest => heard rest

@[simp] theorem heard_append (a b : List Cell) : heard (a ++ b) = heard a ++ heard b := by
  induction a with
  | nil => rfl
  | cons cell a ih => cases cell <;> simp [heard, ih]

@[simp] theorem heard_said (bytes : List UInt8) : heard (said bytes) = bytes := by
  induction bytes with
  | nil => rfl
  | cons b bytes ih => simp [heard, ih]

@[simp] theorem heard_tape (s : List Segment) : heard (tape s) = delivered s := by
  induction s with
  | nil => rfl
  | cons segment rest ih =>
    cases segment with
    | bytes data => simp [ih]
    | fault f => by_cases hf : f.kind = .interrupted <;> simp [tape, hf, heard, ih]
    | pause => exact ih

/-- What a reader took off a tape, how it stopped, and what it left. -/
structure Reading where
  bytes : List UInt8
  stop : Stop
  rest : List Cell

def Taken.onTape (t : Taken) : Reading := ⟨t.bytes, t.stop, tape t.rest⟩

/-- A byte is taken before the others. -/
def Reading.after (b : UInt8) (t : Reading) : Reading := { t with bytes := b :: t.bytes }

def lineOf (idle : Idle) : List Cell → Reading
  | [] => ⟨[], whenIdle idle, []⟩
  | .byte b :: rest => if b = lf then ⟨[b], .complete, rest⟩ else (lineOf idle rest).after b
  | .fault f :: rest => ⟨[], .fault f, rest⟩
  | .pause :: rest => ⟨[], .ended, rest⟩

def exactlyOf (idle : Idle) : Nat → List Cell → Reading
  | 0, cells => ⟨[], .complete, cells⟩
  | _ + 1, [] => ⟨[], whenIdle idle, []⟩
  | n + 1, .byte b :: rest => (exactlyOf idle n rest).after b
  | _ + 1, .fault f :: rest => ⟨[], .fault f, rest⟩
  | _ + 1, .pause :: rest => ⟨[], .ended, rest⟩

/-- Bytes without an LF among them are passed on the way to the end of the line. -/
theorem lineOf_open (idle : Idle) {data : List UInt8} (cells : List Cell) (h : lf ∉ data) :
    lineOf idle (said data ++ cells) =
      { lineOf idle cells with bytes := data ++ (lineOf idle cells).bytes } := by
  induction data with
  | nil => rfl
  | cons b data ih =>
    have hb : b ≠ lf := fun h' => h (by simp [h'])
    have rest := ih fun h' => h (by simp [h'])
    simp [lineOf, hb, rest, Reading.after]

theorem lineOf_closed (idle : Idle) {u : List UInt8} (cells : List Cell) (h : lf ∉ u) :
    lineOf idle (said (u ++ [lf]) ++ cells) = ⟨u ++ [lf], .complete, cells⟩ := by
  rw [said_append, List.append_assoc, lineOf_open idle _ h]
  simp [lineOf]

/-- A line is taken off a stream as it is on the tape. -/
@[simp] theorem line_onTape (idle : Idle) (s : List Segment) :
    (line idle s).onTape = lineOf idle (tape s) := by
  induction s with
  | nil => rfl
  | cons segment rest ih =>
    cases segment with
    | bytes data =>
      by_cases h : lf ∈ data
      · obtain ⟨u, v, rfl, hu⟩ := List.eq_append_cons_of_mem h
        have closed := lineOf_closed idle (said v ++ tape rest) hu
        rw [line_closed idle v rest hu, tape_bytes]
        simpa [Taken.onTape] using closed.symm
      · rw [line_open idle rest h, tape_bytes, lineOf_open idle _ h, ← ih]
        rfl
    | fault f =>
      by_cases hf : f.kind = .interrupted
      · rw [tape_interrupted rest hf, ← ih]
        simp [line, hf]
      · rw [tape_fault rest hf]
        simp [line, hf, lineOf, Taken.onTape]
    | pause => rfl

theorem exactlyOf_said (idle : Idle) (data : List UInt8) (n : Nat) (cells : List Cell) :
    exactlyOf idle (data.length + n) (said data ++ cells) =
      { exactlyOf idle n cells with bytes := data ++ (exactlyOf idle n cells).bytes } := by
  induction data with
  | nil => simp
  | cons b data ih =>
    have count : (b :: data).length + n = (data.length + n) + 1 := by
      rw [List.length_cons]
      omega
    rw [count, said_cons, List.cons_append, exactlyOf, ih]
    rfl

/-- A number of bytes is taken off a stream as it is on the tape. -/
@[simp] theorem exactly_onTape (idle : Idle) (n : Nat) (s : List Segment) :
    (exactly idle n s).onTape = exactlyOf idle n (tape s) := by
  fun_induction exactly idle n s with
  | case1 => simp [exactlyOf, Taken.onTape]
  | case2 => rfl
  | case3 n data rest h =>
    have parted : data = data.take (n + 1) ++ data.drop (n + 1) := by simp
    have count : (data.take (n + 1)).length = n + 1 := List.length_take_of_le h
    have front := exactlyOf_said idle (data.take (n + 1)) 0 (said (data.drop (n + 1)) ++ tape rest)
    rw [count, Nat.add_zero, ← List.append_assoc, ← said_append, ← parted] at front
    rw [tape_bytes, front]
    simp [exactlyOf, Taken.onTape]
  | case4 n data rest h t ih =>
    have count : n.succ = data.length + (n + 1 - data.length) := by omega
    rw [tape_bytes, count, exactlyOf_said, ← ih]
    rfl
  | case5 n f rest hf ih => rw [tape_interrupted rest hf, ih]
  | case6 n f rest hf => rw [tape_fault rest hf]; rfl
  | case7 => rfl

/-- Whatever stops the reader of a line, it took the bytes up to there. -/
theorem lineOf_heard (idle : Idle) (cells : List Cell) :
    heard cells = (lineOf idle cells).bytes ++ heard (lineOf idle cells).rest := by
  induction cells with
  | nil => rfl
  | cons cell cells ih =>
    cases cell with
    | byte b =>
      by_cases hb : b = lf
      · simp [lineOf, hb, heard]
      · simp [lineOf, hb, heard, Reading.after, ih]
    | fault f => rfl
    | pause => rfl

/-- Whatever stops the reader of a number of bytes, it took those up to there. -/
theorem exactlyOf_heard (idle : Idle) (n : Nat) (cells : List Cell) :
    heard cells = (exactlyOf idle n cells).bytes ++ heard (exactlyOf idle n cells).rest := by
  induction cells generalizing n with
  | nil => cases n <;> rfl
  | cons cell cells ih =>
    cases n with
    | zero => rfl
    | succ n =>
      cases cell with
      | byte b => simp [exactlyOf, heard, Reading.after, ih n]
      | fault f => rfl
      | pause => rfl

/-- A line holds one LF, which is its last byte. -/
def IsLine (bytes : List UInt8) : Prop := ∃ front, bytes = front ++ [lf] ∧ lf ∉ front

/-- Nothing stands between the bytes of a complete line. -/
theorem lineOf_complete {idle : Idle} {cells : List Cell}
    (complete : (lineOf idle cells).stop = .complete) :
    IsLine (lineOf idle cells).bytes ∧
      cells = said (lineOf idle cells).bytes ++ (lineOf idle cells).rest := by
  induction cells with
  | nil => cases idle <;> simp [lineOf, whenIdle] at complete
  | cons cell cells ih =>
    cases cell with
    | byte b =>
      by_cases hb : b = lf
      · simp only [lineOf, hb, if_true]
        exact ⟨⟨[], rfl, by simp⟩, rfl⟩
      · simp only [lineOf, hb, if_false, Reading.after] at complete ⊢
        obtain ⟨⟨front, ends, clean⟩, parted⟩ := ih complete
        constructor
        · exact ⟨b :: front, by simp [ends], by simp [clean, Ne.symm hb]⟩
        · simp [← parted]
    | fault f => simp [lineOf] at complete
    | pause => simp [lineOf] at complete

/-- No line ends among the bytes of a line that breaks off. -/
theorem lf_not_mem_lineOf {idle : Idle} {cells : List Cell}
    (stopped : (lineOf idle cells).stop ≠ .complete) : lf ∉ (lineOf idle cells).bytes := by
  induction cells with
  | nil => simp [lineOf]
  | cons cell cells ih =>
    cases cell with
    | byte b =>
      by_cases hb : b = lf
      · simp [lineOf, hb] at stopped
      · simp only [lineOf, hb, if_false, Reading.after] at stopped ⊢
        simp [ih stopped, Ne.symm hb]
    | fault f => simp [lineOf]
    | pause => simp [lineOf]

/-- Nothing stands between the bytes if a reader comes to its number. -/
theorem exactlyOf_complete {idle : Idle} {n : Nat} {cells : List Cell}
    (complete : (exactlyOf idle n cells).stop = .complete) :
    (exactlyOf idle n cells).bytes.length = n ∧
      cells = said (exactlyOf idle n cells).bytes ++ (exactlyOf idle n cells).rest := by
  induction cells generalizing n with
  | nil =>
    cases n with
    | zero => simp [exactlyOf]
    | succ n => cases idle <;> simp [exactlyOf, whenIdle] at complete
  | cons cell cells ih =>
    cases n with
    | zero => simp [exactlyOf]
    | succ n =>
      cases cell with
      | byte b =>
        obtain ⟨count, parted⟩ := ih complete
        simp only [exactlyOf, Reading.after, List.length_cons, count, true_and]
        rw [said_cons, List.cons_append, ← parted]
      | fault f => simp [exactlyOf] at complete
      | pause => simp [exactlyOf] at complete

/-- A reader that does not come to its number has taken fewer bytes. -/
theorem length_exactlyOf_lt {idle : Idle} {n : Nat} {cells : List Cell}
    (stopped : (exactlyOf idle n cells).stop ≠ .complete) :
    (exactlyOf idle n cells).bytes.length < n := by
  induction cells generalizing n with
  | nil =>
    cases n with
    | zero => simp [exactlyOf] at stopped
    | succ n => simp [exactlyOf]
  | cons cell cells ih =>
    cases n with
    | zero => simp [exactlyOf] at stopped
    | succ n =>
      cases cell with
      | byte b =>
        have fewer := ih (n := n) stopped
        simp only [exactlyOf, Reading.after, List.length_cons]
        omega
      | fault f => simp [exactlyOf]
      | pause => simp [exactlyOf]

/-- A line that is complete is the same with more behind it. -/
theorem lineOf_append {idle idle' : Idle} {cells rest : List Cell} {bytes : List UInt8}
    (h : lineOf idle cells = ⟨bytes, .complete, rest⟩) (more : List Cell) :
    lineOf idle' (cells ++ more) = ⟨bytes, .complete, rest ++ more⟩ := by
  induction cells generalizing bytes with
  | nil => cases idle <;> simp [lineOf, whenIdle] at h
  | cons cell cells ih =>
    cases cell with
    | byte b =>
      by_cases hb : b = lf
      · simp only [lineOf, hb, if_true, Reading.mk.injEq] at h
        simp [lineOf, hb, ← h.1, h.2.2]
      · simp only [lineOf, hb, if_false] at h
        rcases hr : lineOf idle cells with ⟨tail, stop, left⟩
        rw [hr] at h
        simp only [Reading.after, Reading.mk.injEq] at h
        obtain ⟨rfl, rfl, rfl⟩ := h
        simp [lineOf, hb, ih hr, Reading.after]
    | fault f => simp [lineOf] at h
    | pause => simp [lineOf] at h

/-- Bytes of which there were enough are the same with more behind them. -/
theorem exactlyOf_append {idle idle' : Idle} {n : Nat} {cells rest : List Cell}
    {bytes : List UInt8} (h : exactlyOf idle n cells = ⟨bytes, .complete, rest⟩)
    (more : List Cell) : exactlyOf idle' n (cells ++ more) = ⟨bytes, .complete, rest ++ more⟩ := by
  induction cells generalizing n bytes with
  | nil =>
    cases n with
    | zero =>
      simp only [exactlyOf, Reading.mk.injEq] at h
      simp [exactlyOf, ← h.1, ← h.2.2]
    | succ n => cases idle <;> simp [exactlyOf, whenIdle] at h
  | cons cell cells ih =>
    cases n with
    | zero =>
      simp only [exactlyOf, Reading.mk.injEq] at h
      simp [exactlyOf, ← h.1, ← h.2.2]
    | succ n =>
      cases cell with
      | byte b =>
        simp only [exactlyOf] at h
        rcases hr : exactlyOf idle n cells with ⟨tail, stop, left⟩
        rw [hr] at h
        simp only [Reading.after, Reading.mk.injEq] at h
        obtain ⟨rfl, rfl, rfl⟩ := h
        simp [exactlyOf, ih hr, Reading.after]
      | fault f => simp [exactlyOf] at h
      | pause => simp [exactlyOf] at h

variable {idle : Idle} {s s' : List Segment}

/-- From streams with the same tape the same line is taken. -/
theorem line_alike (h : tape s' = tape s) : ∃ left,
    line idle s' = ⟨(line idle s).bytes, (line idle s).stop, left⟩ ∧
      tape left = tape (line idle s).rest := by
  have same : (line idle s').onTape = (line idle s).onTape := by
    rw [line_onTape, line_onTape, h]
  simp only [Taken.onTape, Reading.mk.injEq] at same
  exact ⟨(line idle s').rest, by rw [← same.1, ← same.2.1], same.2.2⟩

/-- From streams with the same tape the same number of bytes is taken. -/
theorem exactly_alike (n : Nat) (h : tape s' = tape s) : ∃ left,
    exactly idle n s' = ⟨(exactly idle n s).bytes, (exactly idle n s).stop, left⟩ ∧
      tape left = tape (exactly idle n s).rest := by
  have same : (exactly idle n s').onTape = (exactly idle n s).onTape := by
    rw [exactly_onTape, exactly_onTape, h]
  simp only [Taken.onTape, Reading.mk.injEq] at same
  exact ⟨(exactly idle n s').rest, by rw [← same.1, ← same.2.1], same.2.2⟩

/-- Nothing stood between the bytes of a complete line. -/
theorem line_said (complete : (line idle s).stop = .complete) :
    tape s = said (line idle s).bytes ++ tape (line idle s).rest := by
  have stop : (lineOf idle (tape s)).stop = .complete := by
    rw [← line_onTape]
    exact complete
  have parted := (lineOf_complete stop).2
  rwa [← line_onTape] at parted

/-- Nothing stood between bytes of which there were enough. -/
theorem exactly_said {n : Nat} (complete : (exactly idle n s).stop = .complete) :
    tape s = said (exactly idle n s).bytes ++ tape (exactly idle n s).rest := by
  have stop : (exactlyOf idle n (tape s)).stop = .complete := by
    rw [← exactly_onTape]
    exact complete
  have parted := (exactlyOf_complete stop).2
  rwa [← exactly_onTape] at parted

variable {more : List Cell}

/-- What is behind a complete line does not matter to it. -/
theorem line_before (idle' : Idle) (h : tape s' = tape s ++ more)
    (complete : (line idle s).stop = .complete) : ∃ left,
    line idle' s' = ⟨(line idle s).bytes, .complete, left⟩ ∧
      tape left = tape (line idle s).rest ++ more := by
  have front : lineOf idle (tape s) = ⟨(line idle s).bytes, .complete, tape (line idle s).rest⟩ := by
    rw [← line_onTape, Taken.onTape, complete]
  have same := line_onTape idle' s'
  rw [h, lineOf_append front] at same
  simp only [Taken.onTape, Reading.mk.injEq] at same
  exact ⟨(line idle' s').rest, by rw [← same.1, ← same.2.1], same.2.2⟩

/-- What is behind bytes of which there were enough does not matter to them. -/
theorem exactly_before (idle' : Idle) {n : Nat} (h : tape s' = tape s ++ more)
    (complete : (exactly idle n s).stop = .complete) : ∃ left,
    exactly idle' n s' = ⟨(exactly idle n s).bytes, .complete, left⟩ ∧
      tape left = tape (exactly idle n s).rest ++ more := by
  have front : exactlyOf idle n (tape s) =
      ⟨(exactly idle n s).bytes, .complete, tape (exactly idle n s).rest⟩ := by
    rw [← exactly_onTape, Taken.onTape, complete]
  have same := exactly_onTape idle' n s'
  rw [h, exactlyOf_append front] at same
  simp only [Taken.onTape, Reading.mk.injEq] at same
  exact ⟨(exactly idle' n s').rest, by rw [← same.1, ← same.2.1], same.2.2⟩

end Stream

end ImapSession
