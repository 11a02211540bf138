import ImapSession.Proofs.Counting
import ImapSession.Proofs.Placing

/-!
Two readers of one announcement. The framer looks for a count at the end of a line, and the
tokens of a line have literals that begin with one. What the tokens take for an announcement
the framer takes for one too. The framer is less strict: it takes a plus in front of the digits,
and a line end that is a bare LF. Such a literal is taken off the stream and is no token, and
neither is one whose last byte goes with the line end, or one in a list that is not closed.
-/
namespace ImapSession

open Token (cr lf openCount closeCount)

namespace Token

/-- The announcement at the front, as the tokens of a line have it, and what follows it: digits
between braces and a line end, and no larger number than a 64-bit word. -/
def announcement? (bytes : List UInt8) : Option (Nat × List UInt8) :=
  match bytes with
  | [] => none
  | a :: r =>
    let digits := r.takeWhile Ascii.isDigit
    match r.dropWhile Ascii.isDigit with
    | b :: c :: d :: rest =>
      if a = openCount ∧ digits ≠ [] ∧ Ascii.decimal digits ≤ Framer.maxCount ∧
          b = closeCount ∧ c = cr ∧ d = lf then
        some (Ascii.decimal digits, rest)
      else none
    | _ => none

variable {bytes rest : List UInt8} {n : Nat}

theorem announcement_iff : announcement? bytes = some (n, rest) ↔
    ∃ digits, digits ≠ [] ∧ (∀ b ∈ digits, Ascii.isDigit b = true) ∧ Ascii.decimal digits = n ∧
      n ≤ Framer.maxCount ∧ bytes = openCount :: (digits ++ closeCount :: cr :: lf :: rest) := by
  constructor
  · intro h
    cases bytes with
    | nil => cases h
    | cons a r =>
      have whole := List.takeWhile_append_dropWhile (p := Ascii.isDigit) (l := r)
      simp only [announcement?] at h
      split at h
      · rename_i b c d rest' cut
        split at h
        · rename_i announced
          obtain ⟨rfl, some, word, rfl, rfl, rfl⟩ := announced
          obtain ⟨rfl, rfl⟩ := Prod.mk.inj (Option.some.inj h)
          rw [cut] at whole
          exact ⟨_, some, fun b hb => List.mem_takeWhile_imp hb, rfl, word, by rw [whole]⟩
        · cases h
      · cases h
  · rintro ⟨digits, some, all, rfl, word, rfl⟩
    have ends : Splitting.Ends Ascii.isDigit (closeCount :: cr :: lf :: rest) := by
      simp [Ascii.isDigit, closeCount]
    simp only [announcement?, Splitting.takeWhile_run all ends, Splitting.dropWhile_run all ends]
    exact if_pos ⟨trivial, some, word, trivial, trivial, trivial⟩

/-- A literal is an announcement and the bytes that it counts. -/
theorem literal_eq (fits : bytes.length ≤ Framer.maxCount) : literal bytes =
    (announcement? (openCount :: bytes)).bind fun (n, rest) => cutOnto [] n rest := by
  cases made : announcement? (openCount :: bytes) with
  | some found =>
    obtain ⟨n, rest⟩ := found
    obtain ⟨digits, some, all, rfl, -, same⟩ := announcement_iff.1 made
    obtain rfl := List.tail_eq_of_cons_eq same
    have ends : Splitting.Ends Ascii.isDigit (closeCount :: cr :: lf :: rest) := by
      simp [Ascii.isDigit, closeCount]
    simp only [literal, Splitting.takeWhile_run all ends, List.drop_left, some, ne_eq, not_false_eq_true,
      and_self, if_true, Option.bind_some]
  | none =>
    cases read : literal bytes with
    | none => rfl
    | some found =>
      obtain ⟨data, rest⟩ := found
      obtain ⟨digits, some, all, count, rfl⟩ := counted_of_literal read
      have word : Ascii.decimal digits ≤ Framer.maxCount := by
        simp only [List.length_append, List.length_cons] at fits
        omega
      rw [announcement_iff.2 ⟨digits, some, all, rfl, word, rfl⟩] at made
      cases made

/-- Where no literal can be read, no token begins with its opening brace. -/
theorem barred_of_literal (none : literal bytes = none) : Barred (openCount :: bytes) := by
  refine ⟨by simp [isGap, openCount], by simp [openCount, closeList], fun n => ?_⟩
  cases n with
  | zero => rfl
  | succ n => rw [first, if_neg (by decide), if_pos rfl, none, Option.map_none]

/-- A literal with these bytes is one of the tokens of a line, and what they leave of the line is
behind it. -/
structure Takes (line data back : List UInt8) : Prop where
  among : Among (.text (Utf8.decode data)) (several line).1
  left : (several line).2 <:+ back

/-- A literal is not taken if something in front of what is behind it is left. -/
theorem not_takes {line data back x : List UInt8} (left : x <:+ (several line).2)
    (longer : back.length < x.length) : ¬ Takes line data back := fun takes => by
  have := (left.trans takes.left).length_le
  omega

end Token

namespace Line

/-- What is in front does not matter to what is dropped at the end. -/
theorem dropLastIf_behind (b : UInt8) (front : List UInt8) {bytes : List UInt8} (some : bytes ≠ []) :
    dropLastIf b (front ++ bytes) = front ++ dropLastIf b bytes := by
  rcases List.eq_nil_or_concat bytes with rfl | ⟨bytes, c, rfl⟩
  · contradiction
  · by_cases last : c = b <;> simp [dropLastIf, last, ← List.append_assoc]

end Line

namespace Framer

/-- An end of a line in which the framer sees a count. -/
structure Mark where
  digits : List UInt8
  ending : List UInt8
  length : Nat
  counted : count? digits = some length
  ended : ending = [cr, lf] ∨ ending = [lf]

/-- In front of a bare line end the same is announced as in front of a whole one. -/
theorem announced_lf {bytes : List UInt8} {n : Nat} (bare : bytes.getLast? ≠ some cr) :
    announced (bytes ++ [lf]) = some n ↔ Announces bytes n := by
  have same : announcedBack (lf :: bytes.reverse) = announcedBack (lf :: cr :: bytes.reverse) := by
    simp [announcedBack, bare]
  have whole : (bytes ++ [cr, lf]).reverse = lf :: cr :: bytes.reverse := by simp
  have shorter : (bytes ++ [lf]).reverse = lf :: bytes.reverse := by simp
  rw [announced, shorter, same, ← whole, announced_line]

namespace Mark

variable (m : Mark)

def bytes : List UInt8 := openCount :: (m.digits ++ closeCount :: m.ending)

/-- There is no plus in front of the digits, and the line end is whole. -/
def Strict : Prop := m.digits.head? ≠ some Line.plus ∧ m.ending = [cr, lf]

instance : Decidable m.Strict := inferInstanceAs (Decidable (_ ∧ _))

theorem bytes_ne_nil : m.bytes ≠ [] := List.cons_ne_nil _ _

theorem dropLastIf_bytes : Line.dropLastIf cr m.bytes = m.bytes := by
  have last : m.bytes.getLast? ≠ some cr := by
    rcases m.ended with ended | ended <;> simp [bytes, ended, List.getLast?_cons, lf, cr]
  rw [Line.dropLastIf, if_neg last]

theorem open_not_mem : openCount ∉ m.digits ++ closeCount :: m.ending := by
  have digits := Framer.open_not_mem m.counted
  have ending : openCount ∉ closeCount :: m.ending := by
    rcases m.ended with ended | ended <;> rw [ended] <;> decide
  simp only [List.mem_append, digits, ending, or_self, not_false_eq_true]

theorem close_not_mem : closeCount ∉ m.digits := fun h => by
  have := count_bytes m.counted _ h
  simp [closeCount, Line.plus, Ascii.isDigit] at this

/-- The framer sees the count whatever is in front of it. -/
@[simp] theorem announced (before : List UInt8) :
    Framer.announced (before ++ m.bytes) = some m.length := by
  have announces : Announces (before ++ openCount :: (m.digits ++ [closeCount])) m.length :=
    ⟨before, m.digits, rfl, m.counted⟩
  rcases m.ended with ended | ended
  · rw [Framer.announced, ← announced_line.2 announces]
    simp [bytes, ended]
  · have bare : (before ++ openCount :: (m.digits ++ [closeCount])).getLast? ≠ some cr := by
      rw [← List.cons_append, ← List.append_assoc, List.getLast?_concat]
      decide
    rw [← (announced_lf bare).2 announces]
    simp [bytes, ended]

/-- Digits between braces in front of a whole line end are a strict mark, and the only one. -/
theorem strict_of_digits {digits y z : List UInt8} (all : ∀ b ∈ digits, Ascii.isDigit b = true)
    (h : m.bytes ++ y = openCount :: (digits ++ closeCount :: cr :: lf :: z)) :
    m.Strict ∧ m.digits = digits ∧ y = z := by
  have closeless : closeCount ∉ digits := fun h => by
    simpa [Ascii.isDigit, closeCount] using all _ h
  have parted : m.digits ++ closeCount :: (m.ending ++ y) = digits ++ closeCount :: cr :: lf :: z := by
    simpa [bytes] using h
  obtain ⟨same, rest⟩ := Splitting.at_first m.close_not_mem closeless parted
  have plain := head_digits (List.all_eq_true.2 (same ▸ all))
  rcases m.ended with ended | ended
  · exact ⟨⟨plain, ended⟩, same, by simpa [ended] using rest⟩
  · simp [ended, lf, cr] at rest

/-- In a strict mark the digits are the number. -/
theorem Strict.numeral {m : Mark} (strict : m.Strict) : m.digits ≠ [] ∧
    (∀ b ∈ m.digits, Ascii.isDigit b = true) ∧ Ascii.decimal m.digits = m.length ∧
      m.length ≤ maxCount := by
  have counted := m.counted
  simp only [count?, if_neg strict.1] at counted
  split at counted
  · rename_i numeral
    obtain ⟨some, all, word⟩ := numeral
    have number := Option.some.inj counted
    exact ⟨some, List.all_eq_true.1 all, number, number ▸ word⟩
  · cases counted

theorem Strict.bytes_eq {m : Mark} (strict : m.Strict) :
    m.bytes = openCount :: (m.digits ++ closeCount :: cr :: lf :: []) := by
  rw [bytes, strict.2]

theorem Strict.announcement {m : Mark} (strict : m.Strict) :
    Token.announcement? m.bytes = some (m.length, []) := by
  obtain ⟨some, all, number, word⟩ := strict.numeral
  exact Token.announcement_iff.2 ⟨m.digits, some, all, number, word, strict.bytes_eq⟩

/-- Behind the mark of a literal that is read stand as many bytes as the mark counts. -/
theorem of_literal {y data z : List UInt8}
    (read : Token.literal (m.digits ++ closeCount :: (m.ending ++ y)) = some (data, z)) :
    m.Strict ∧ data.length = m.length ∧ y = data ++ z := by
  obtain ⟨digits, -, all, count, parted⟩ := Token.counted_of_literal read
  obtain ⟨strict, same, rest⟩ := m.strict_of_digits all (by simpa [bytes] using parted)
  exact ⟨strict, by rw [← count, ← same, strict.numeral.2.2.1], rest⟩

end Mark

variable {line : List UInt8} {n : Nat}

/-- What is announced at the end of a line is announced by a mark. -/
theorem mark_of_announced (closed : line.getLast? = some lf) (h : announced line = some n) :
    ∃ before, ∃ m : Mark, line = before ++ m.bytes ∧ m.length = n := by
  obtain ⟨front, rfl⟩ := List.getLast?_eq_some_iff.1 closed
  by_cases whole : front.getLast? = some cr
  · obtain ⟨bytes, rfl⟩ := List.getLast?_eq_some_iff.1 whole
    have announces : Announces bytes n := announced_line.1 (by simpa [announced] using h)
    obtain ⟨before, digits, rfl, counted⟩ := announces
    exact ⟨before, ⟨digits, [cr, lf], n, counted, .inl rfl⟩, by simp [Mark.bytes], rfl⟩
  · obtain ⟨before, digits, rfl, counted⟩ := (announced_lf whole).1 h
    exact ⟨before, ⟨digits, [lf], n, counted, .inr rfl⟩, by simp [Mark.bytes], rfl⟩

/-- What the tokens take for an announcement at the end of a line is a strict mark. -/
theorem mark_of_announcement {suffix : List UInt8}
    (h : Token.announcement? suffix = some (n, [])) :
    ∃ m : Mark, suffix = m.bytes ∧ m.length = n ∧ m.Strict := by
  obtain ⟨digits, some, all, rfl, word, rfl⟩ := Token.announcement_iff.1 h
  have digital := List.all_eq_true.2 all
  exact ⟨⟨digits, [cr, lf], _, count_decimal some digital word, .inl rfl⟩, rfl, rfl,
    head_digits digital, rfl⟩

/-- The tokens have an announcement at the end of a line. -/
def Accepted (line : List UInt8) (n : Nat) : Prop :=
  ∃ suffix, suffix <:+ line ∧ Token.announcement? suffix = some (n, [])

/-- A line has one mark at most, and the tokens accept it exactly if it is strict. -/
theorem accepted_mark {before : List UInt8} {m : Mark} :
    Accepted (before ++ m.bytes) n ↔ m.Strict ∧ m.length = n := by
  constructor
  · rintro ⟨suffix, ⟨front, same⟩, accepted⟩
    obtain ⟨m', rfl, rfl, strict⟩ := mark_of_announcement accepted
    obtain ⟨-, tail⟩ := Splitting.at_last m'.open_not_mem m.open_not_mem same
    obtain ⟨digits, ending⟩ := Splitting.at_first m'.close_not_mem m.close_not_mem tail
    have counted := m.counted
    rw [← digits, m'.counted] at counted
    exact ⟨⟨digits ▸ strict.1, ending ▸ strict.2⟩, (Option.some.inj counted).symm⟩
  · rintro ⟨strict, rfl⟩
    exact ⟨m.bytes, List.suffix_append before m.bytes, strict.announcement⟩

/-- Framer and tokens agree on a line exactly if its mark, if it has one, is strict. -/
theorem announced_iff_accepted (closed : line.getLast? = some lf) :
    (∀ n, announced line = some n ↔ Accepted line n) ↔
      ∀ before, ∀ m : Mark, line = before ++ m.bytes → m.Strict := by
  constructor
  · rintro agree before m rfl
    exact (accepted_mark.1 ((agree _).1 (m.announced before))).1
  · intro strict n
    constructor
    · intro announced
      obtain ⟨before, m, rfl, rfl⟩ := mark_of_announced closed announced
      exact accepted_mark.2 ⟨strict before m rfl, rfl⟩
    · rintro ⟨suffix, ⟨before, rfl⟩, accepted⟩
      obtain ⟨m, rfl, rfl, -⟩ := mark_of_announcement accepted
      exact m.announced before

/-- The bytes of a literal in a response: a mark in front of them counts them, and the line that
they stand in goes on behind them to its end. -/
structure Pulled (raw before : List UInt8) (m : Mark) (data rest : List UInt8) : Prop where
  parted : raw = before ++ (m.bytes ++ (data ++ rest))
  counted : m.length = data.length
  closed : rest.getLast? = some lf

/-- The last byte of the literal is taken for a part of the line end. -/
def Clipped (data rest : List UInt8) : Prop := rest = [lf] ∧ data.getLast? = some cr

/-- A response ends where a line ends. -/
theorem Ending.closed {held taken : List UInt8} {blank : Nat}
    (ending : Ending held taken .response blank) : taken.getLast? = some lf := by
  cases ending with
  | response counted isLine silent =>
    obtain ⟨text, rfl, -⟩ := isLine
    simp [List.getLast?_append, Stream.lf, lf]

/-- A pass that is not the last pulls the bytes of a literal. -/
theorem pulled_of_pass {idle : Idle} {held back : List UInt8} {s left : List Segment}
    (again : pass idle held.reverse s = .again back left)
    (done : (gather idle held.reverse s).outcome = .response) : ∃ before m data rest,
      Pulled (gather idle held.reverse s).back.reverse before m data rest ∧
        back.reverse = before ++ (m.bytes ++ data) := by
  have step := pass_taken idle held s
  rw [again] at step
  obtain ⟨taken, parted, rfl, counted⟩ := step
  rw [gather_again again] at done ⊢
  obtain ⟨others, -, gathered, ending⟩ := gather_taken idle (held ++ taken) left
  rw [done] at ending
  cases counted with
  | none =>
    have less := size_again again
    rw [← Stream.length_delivered, ← Stream.length_delivered, parted] at less
    simp at less
  | @literal front line data counted isLine count fits =>
    have closed : (held ++ (front ++ line)).getLast? = some lf := by
      obtain ⟨text, rfl, -⟩ := isLine
      simp [List.getLast?_append, Stream.lf, lf]
    obtain ⟨before, m, marked, length⟩ := mark_of_announced closed count
    have whole : held ++ (front ++ line ++ data) = before ++ (m.bytes ++ data) := by
      rw [← List.append_assoc before, ← marked]
      simp
    have raw : (gather idle (held ++ (front ++ line ++ data)).reverse left).back.reverse =
        before ++ (m.bytes ++ (data ++ others)) := by
      rw [gathered, List.reverse_reverse, whole]
      simp
    exact ⟨before, m, data, others, ⟨raw, length, ending.closed⟩, by rw [List.reverse_reverse, whole]⟩

/-- Whatever is pulled with a line on the way to a response is a literal in it. -/
theorem pulled_of_next {f g : Framer} {s t : Stream} {r : Response} {back back' : List UInt8}
    {left left' : List Segment} (read : f.next s = (.ok r, g, t))
    (comes : Proceeds s.idle f.held.reverse s.segments back left)
    (again : pass s.idle back left = .again back' left') : ∃ before m data rest,
      Pulled r.raw before m data rest ∧ back'.reverse = before ++ (m.bytes ++ data) := by
  obtain ⟨done, raw⟩ := raw_of_next read
  rw [comes.gather] at done raw
  rw [← List.reverse_reverse back] at again done raw
  rw [raw]
  exact pulled_of_pass again done

variable {raw before data rest : List UInt8} {m : Mark}

/-- Without its line end the line still has the literal and what is behind it, unless the literal
is clipped. -/
theorem Pulled.chomp (pulled : Pulled raw before m data rest) :
    ∃ kept, Line.chomp raw = before ++ (m.bytes ++ kept) ∧
      (¬ Clipped data rest ∧ kept = data ++ Line.chomp rest ∨
        Clipped data rest ∧ kept.length < data.length ∧ Line.chomp rest = []) := by
  obtain ⟨front, rfl⟩ := List.getLast?_eq_some_iff.1 pulled.closed
  have whole : Line.chomp raw = Line.dropLastIf cr (before ++ m.bytes ++ data ++ front) := by
    rw [pulled.parted, ← Line.chomp_closed]
    simp
  rw [whole, Line.chomp_closed]
  by_cases bare : front = []
  · subst bare
    rw [List.append_nil]
    cases last : data.getLast? with
    | none =>
      obtain rfl := List.getLast?_eq_none_iff.1 last
      refine ⟨[], ?_, .inl ⟨by simp [Clipped], rfl⟩⟩
      rw [List.append_nil, Line.dropLastIf_behind cr _ m.bytes_ne_nil, m.dropLastIf_bytes]
      simp
    | some b =>
      obtain ⟨kept, rfl⟩ := List.getLast?_eq_some_iff.1 last
      by_cases clipped : b = cr
      · subst clipped
        refine ⟨kept, ?_, .inr ⟨by simp [Clipped], by simp, rfl⟩⟩
        rw [← List.append_assoc, Line.dropLastIf_closed, List.append_assoc]
      · refine ⟨kept ++ [b], ?_, .inl ⟨by simp [Clipped, clipped], by simp [Line.dropLastIf]⟩⟩
        rw [Line.dropLastIf_behind cr _ (by simp)]
        simp [Line.dropLastIf, clipped]
  · refine ⟨data ++ Line.dropLastIf cr front, ?_, .inl ⟨by simp [Clipped, bare], rfl⟩⟩
    rw [Line.dropLastIf_behind cr _ bare]
    simp

/-- With less behind it than it counts, or if it is not strict, a mark begins no token. -/
theorem Mark.barred (m : Mark) {kept : List UInt8}
    (none : m.Strict → kept.length < m.length) : Token.Barred (m.bytes ++ kept) := by
  have unread : Token.literal (m.digits ++ closeCount :: (m.ending ++ kept)) = Option.none := by
    cases read : Token.literal (m.digits ++ closeCount :: (m.ending ++ kept)) with
    | none => rfl
    | some found =>
      obtain ⟨data, z⟩ := found
      obtain ⟨strict, count, rfl⟩ := m.of_literal read
      have short := none strict
      rw [List.length_append] at short
      omega
  simpa [bytes] using Token.barred_of_literal unread

/-- A strict mark and the bytes that it counts are a literal. -/
theorem Mark.Strict.spells {m : Mark} {data : List UInt8} (strict : m.Strict)
    (counted : m.length = data.length) :
    Token.Spells (.text (Utf8.decode data)) (m.bytes ++ data) := by
  obtain ⟨some, all, number, -⟩ := strict.numeral
  have spelt := Token.Spells.literal some all (number.trans counted)
  rw [strict.bytes_eq]
  simpa using spelt

/-- A literal at a place for a token is taken by the tokens exactly if its mark is strict, it is
not clipped, and the lists around it are closed. Otherwise all from its mark on is left. -/
theorem takes_place {depth : Nat} {front body : List UInt8}
    (pulled : Pulled raw (Line.star :: Line.space :: front) m data rest)
    (place : Token.Place depth front) (chomped : Line.chomp raw = Line.star :: Line.space :: body) :
    (Token.Takes body data (Line.chomp rest) ↔
      m.Strict ∧ ¬ Clipped data rest ∧ Token.Closes depth (Line.chomp rest)) ∧
    (Token.Takes body data (Line.chomp rest) ∨
      body.drop front.length <:+ (Token.several body).2) := by
  obtain ⟨kept, line, cases⟩ := pulled.chomp
  obtain rfl : body = front ++ (m.bytes ++ kept) := by
    rw [chomped] at line
    simpa using line
  rw [List.drop_left]
  have some := List.length_pos_iff.2 m.bytes_ne_nil
  by_cases whole : m.Strict ∧ ¬ Clipped data rest
  · obtain ⟨strict, unclipped⟩ := whole
    obtain ⟨-, rfl⟩ | ⟨clipped, -⟩ := cases
    · have spells := strict.spells pulled.counted
      have text := Token.done_text (Utf8.decode data) (Line.chomp rest)
      rw [← List.append_assoc m.bytes]
      by_cases closes : Token.Closes depth (Line.chomp rest)
      · obtain ⟨among, left⟩ := Token.several_place place closes spells text
        exact ⟨iff_of_true ⟨among, left⟩ ⟨strict, unclipped, closes⟩, .inl ⟨among, left⟩⟩
      · have left := place.unclosed spells text closes
        have longer : (Line.chomp rest).length < (m.bytes ++ data ++ Line.chomp rest).length := by
          simp only [List.length_append]
          omega
        exact ⟨iff_of_false (Token.not_takes left longer) fun ⟨_, _, h⟩ => closes h, .inr left⟩
    · contradiction
  · have short : m.Strict → kept.length < m.length := by
      intro strict
      obtain ⟨unclipped, -⟩ | ⟨-, less, -⟩ := cases
      · exact absurd ⟨strict, unclipped⟩ whole
      · rwa [pulled.counted]
    have longer : (Line.chomp rest).length < (m.bytes ++ kept).length := by
      obtain ⟨-, rfl⟩ | ⟨-, -, nothing⟩ := cases
      · simp only [List.length_append]
        omega
      · simp only [nothing, List.length_append, List.length_nil]
        omega
    have left := place.barred (m.barred short)
    exact ⟨iff_of_false (Token.not_takes left longer) fun ⟨strict, unclipped, _⟩ =>
      whole ⟨strict, unclipped⟩, .inr left⟩

/-- What an untagged line that is not a condition says are the tokens behind its star. -/
theorem tokens_of_data {line body : List UInt8} {tokens : List Token}
    (starred : line = Line.star :: Line.space :: body)
    (said : Line.messageOf? line = some (.data tokens)) : tokens = Token.ofBytes body := by
  rw [starred, Line.messageOf?, Line.heading_of_heads (.untagged body)] at said
  dsimp only at said
  cases condition : Line.conditionOf? body with
  | none =>
    rw [condition] at said
    simpa using said.symm
  | some c =>
    rw [condition] at said
    cases said

theorem chomp_of_next {f g : Framer} {s t : Stream} {r : Response} {tokens : List Token}
    {front : List UInt8} (read : f.next s = (.ok r, g, t)) (said : r.message = .data tokens)
    (pulled : Pulled r.raw (Line.star :: Line.space :: front) m data rest) :
    ∃ body, Line.chomp r.raw = Line.star :: Line.space :: body ∧ tokens = Token.ofBytes body := by
  obtain ⟨kept, chomped, -⟩ := pulled.chomp
  have message : Line.messageOf? (Line.chomp r.raw) = some (.data tokens) := by
    have made := response_of_next read
    rw [← (raw_of_next read).2] at made
    obtain ⟨found, message, same⟩ := Option.map_eq_some_iff.1 made
    rw [message, ← said, ← same]
  exact ⟨_, chomped, tokens_of_data chomped message⟩

/-- On a line framer and tokens agree exactly if there is no mark in it that is not strict; and
what is announced to the tokens, with the bytes that it counts, is what they read as a literal.
On the way to a response the framer pulls such literals with its lines. Of those that stand at
places for tokens, the tokens of the response have exactly those which a strict mark announces,
which are not clipped, and around which every list is closed. Any other is left as text, with
its mark. -/
theorem announced_agrees (line bytes : List UInt8) (f : Framer) (s : Stream) :
    (line.getLast? = some lf → ((∀ n, announced line = some n ↔ Accepted line n) ↔
      ∀ before, ∀ m : Mark, line = before ++ m.bytes → m.Strict)) ∧
    (bytes.length ≤ maxCount → Token.literal bytes =
      (Token.announcement? (openCount :: bytes)).bind fun (n, rest) => Token.cutOnto [] n rest) ∧
    ∀ (r : Response) (g : Framer) (t : Stream), f.next s = (.ok r, g, t) →
      (∀ back left back' left', Proceeds s.idle f.held.reverse s.segments back left →
        pass s.idle back left = .again back' left' → ∃ before m data rest,
          Pulled r.raw before m data rest ∧ back'.reverse = before ++ (m.bytes ++ data)) ∧
      ∀ (tokens : List Token) (depth : Nat) (front : List UInt8) (m : Mark)
        (data rest : List UInt8), r.message = .data tokens →
        Pulled r.raw (Line.star :: Line.space :: front) m data rest → Token.Place depth front →
        ∃ body, Line.chomp r.raw = Line.star :: Line.space :: body ∧
          tokens = Token.ofBytes body ∧
          (Token.Takes body data (Line.chomp rest) ↔
            m.Strict ∧ ¬ Clipped data rest ∧ Token.Closes depth (Line.chomp rest)) ∧
          (Token.Takes body data (Line.chomp rest) ∨
            body.drop front.length <:+ (Token.several body).2) := by
  refine ⟨announced_iff_accepted, Token.literal_eq,
    fun r g t read => ⟨fun back left back' left' => pulled_of_next read, ?_⟩⟩
  intro tokens depth front m data rest said pulled place
  obtain ⟨body, chomped, same⟩ := chomp_of_next read said pulled
  exact ⟨body, chomped, same, takes_place pulled place chomped⟩

/-- A literal inside a list, with a parenthesis and a CR among its bytes. -/
def nested : Response :=
  ⟨.data [.atom "1", .list [.atom "X", .text "a)\r", .list [.atom "Y"]], .atom "z"],
    Utf8.encode "* 1 (X \x7b3\x7d\r\na)\r (Y)) z\r\n"⟩

theorem announced_nested :
    let line := Utf8.encode "* 1 (X \x7b3\x7d\r\n"
    let m : Mark := ⟨Utf8.encode "3", [cr, lf], 3, by decide, .inl rfl⟩
    let front := Utf8.encode "1 (X "
    let data := Utf8.encode "a)\r"
    let rest := Utf8.encode " (Y)) z\r\n"
    ((∀ n, announced line = some n ↔ Accepted line n) ↔
      ∀ before, ∀ m : Mark, line = before ++ m.bytes → m.Strict) ∧
    Token.literal (Utf8.encode "3\x7d\r\na)\r (Y)) z") = some (data, Utf8.encode " (Y)) z") ∧
    ∃ body, Line.chomp nested.raw = Line.star :: Line.space :: body ∧
      [.atom "1", .list [.atom "X", .text "a)\r", .list [.atom "Y"]], .atom "z"] =
        Token.ofBytes body ∧
      (Token.Takes body data (Line.chomp rest) ↔
        m.Strict ∧ ¬ Clipped data rest ∧ Token.Closes 1 (Line.chomp rest)) ∧
      (Token.Takes body data (Line.chomp rest) ∨
        body.drop front.length <:+ (Token.several body).2) := by
  intro line m front data rest
  have whole : nested.Whole := by decide +kernel
  obtain ⟨g, t, read⟩ := next_alone whole
  have pulled : Pulled nested.raw (Line.star :: Line.space :: front) m data rest :=
    ⟨by decide, by decide, by decide⟩
  have atom : ∀ b : UInt8, Token.isAtomByte b = true → Token.Row [.atom (Utf8.decode [b])] [b] :=
    fun b atom => .cons (.atom (by simp) (by simpa using atom)) .nil
  have gap : ∀ b ∈ [Line.space], Token.isGap b = true := List.all_eq_true.1 (by decide)
  have parts : front = [0x31] ++ [Line.space] ++ Token.openList :: ([0x58] ++ [Line.space]) := by
    decide
  have place : Token.Place 1 front := by
    rw [parts]
    exact .list (.line (atom 0x31 (by decide)) (by simp) gap) (atom 0x58 (by decide)) (by simp) gap
  obtain ⟨agree, literal, taken⟩ := announced_agrees line (Utf8.encode "3\x7d\r\na)\r (Y)) z")
    empty ⟨[.bytes nested.raw], .ended⟩
  refine ⟨agree (by decide), ?_, (taken _ _ _ read).2 _ _ _ _ _ _ rfl pulled place⟩
  rw [literal (by decide)]
  decide

/-- A plus in front of the digits: the framer takes a literal, and the tokens have none. -/
theorem announced_plus :
    let line := Utf8.encode "* 1 X \x7b+3\x7d\r\n"
    line.getLast? = some lf ∧ announced line = some 3 ∧ (∀ n, ¬ Accepted line n) ∧
      (empty.next ⟨[.bytes (line ++ Utf8.encode "abc\r\n")], .ended⟩).1.toOption.map Response.message =
        some (.data [.atom "1", .atom "X", .atom "\x7b+3\x7d\r\nabc"]) := by
  intro line
  let m : Mark := ⟨Utf8.encode "+3", [cr, lf], 3, by decide, .inl rfl⟩
  refine ⟨by decide, by decide, ?_, by decide +kernel⟩
  intro n accepted
  have marked : line = Utf8.encode "* 1 X " ++ m.bytes := by decide
  rw [marked] at accepted
  exact absurd (accepted_mark.1 accepted).1 (by decide)

end Framer

end ImapSession
