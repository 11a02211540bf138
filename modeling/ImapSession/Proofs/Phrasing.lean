import Mathlib.Data.List.TakeWhile
import ImapSession.Proofs.Splitting
import ImapSession.Response.Line

/-!
How a line has to be phrased to be a response. A line is headed by a plus, by a star and a
space, or by a tag and a space; a condition opens with the word of a status, and may carry a
code in brackets. What is accepted is told here without the order in which the reading tries
things, and every accepted line says what its phrasing says and nothing else.
-/
namespace ImapSession

namespace Ascii

/-- Above 127 no character has a case. -/
theorem case_large {c : Char} (large : 0x80 ≤ c.toNat) : c.toUpper = c ∧ c.toLower = c := by
  have value : c.val.toNat = c.toNat := rfl
  constructor
  · refine dif_neg ?_
    rintro ⟨-, high⟩
    have : c.val.toNat ≤ 'z'.val.toNat := high
    have : 'z'.val.toNat = 0x7a := rfl
    omega
  · refine dif_neg ?_
    rintro ⟨-, high⟩
    have : c.val.toNat ≤ 'Z'.val.toNat := high
    have : 'Z'.val.toNat = 0x5a := rfl
    omega

/-- In capitals, the case that a character had before is lost. -/
theorem toUpper_toLower (c : Char) : c.toLower.toUpper = c.toUpper := by
  by_cases small : c.toNat < 0x80
  · have all : ∀ v < 0x80, (Char.ofNat v).toLower.toUpper = (Char.ofNat v).toUpper := by decide
    have one := all c.toNat small
    rwa [Char.ofNat_toNat] at one
  · rw [(case_large (Nat.not_lt.1 small)).2]

theorem toUpper_toUpper (c : Char) : c.toUpper.toUpper = c.toUpper := by
  by_cases small : c.toNat < 0x80
  · have all : ∀ v < 0x80, (Char.ofNat v).toUpper.toUpper = (Char.ofNat v).toUpper := by decide
    have one := all c.toNat small
    rwa [Char.ofNat_toNat] at one
  · rw [(case_large (Nat.not_lt.1 small)).1, (case_large (Nat.not_lt.1 small)).1]

/-- A name in capitals is the same as another if that is what it is in capitals. -/
theorem sameName_upper (s : String) {name : String} (capital : upper name = name) :
    sameName (upper s) name = true ↔ upper s = name := by
  have lost : ∀ cs : List Char, (cs.map Char.toLower).map Char.toUpper = cs.map Char.toUpper := by
    intro cs
    rw [List.map_map]
    exact List.map_congr_left fun c _ => toUpper_toLower c
  have twice : ∀ cs : List Char, (cs.map Char.toUpper).map Char.toUpper = cs.map Char.toUpper := by
    intro cs
    rw [List.map_map]
    exact List.map_congr_left fun c _ => toUpper_toUpper c
  constructor
  · intro same
    have lowered : (upper s).toList.map Char.toLower = name.toList.map Char.toLower := by
      simpa [sameName] using same
    have raised := congrArg (List.map Char.toUpper) lowered
    rw [lost, lost, upper, String.toList_ofList, twice] at raised
    rw [← capital, upper, upper, raised]
  · intro same
    simp [same, sameName]

end Ascii

theorem Status.ofName_iff {word : String} {status : Status} :
    ofName? word = some status ↔ Ascii.sameName status.name word = true := by
  constructor
  · intro named
    simpa using List.find?_some named
  · intro same
    have lowered : status.name.toList.map Char.toLower = word.toList.map Char.toLower := by
      simpa [Ascii.sameName] using same
    have apart : ∀ s t : Status, Ascii.sameName s.name t.name = decide (s = t) := by
      intro s t
      cases s <;> cases t <;> decide
    have matched : (fun s : Status => Ascii.sameName s.name word) = fun s => decide (s = status) := by
      funext s
      rw [← apart s status, Ascii.sameName, Ascii.sameName, lowered]
    rw [ofName?, matched]
    cases status <;> decide

namespace Line

open Splitting (Ends)

variable {raw line body after bytes text : List UInt8} {status : Status} {code : Option String}
variable {r : Response}

/-- Less one `b` at the end, if one is there. -/
def Less (b : UInt8) (bytes rest : List UInt8) : Prop :=
  bytes = rest ++ [b] ∨ rest = bytes ∧ bytes.getLast? ≠ some b

/-- The line that some bytes hold: they end in one LF at most that is no part of it, and in one
CR at most before that. -/
def Holds (raw line : List UInt8) : Prop := ∃ most, Less Token.lf raw most ∧ Less Token.cr most line

/-- How a line begins, and the body behind that. A star alone is no tag. -/
inductive Heads : List UInt8 → Heading → List UInt8 → Prop
  | continuation (body : List UInt8) : Heads (plus :: body) .continuation body
  | untagged (body : List UInt8) : Heads (star :: space :: body) .untagged body
  | tagged {tag : List UInt8} (body : List UInt8) (some : tag ≠ []) (other : tag ≠ [star])
      (all : ∀ b ∈ tag, isTagByte b = true) :
      Heads (tag ++ space :: body) (.tagged (Utf8.decode tag)) body

/-- A body opens with the word of a status, in any letter case, and the word ends there: at the
end of the body, or at a gap with the rest behind it. -/
def Opens (status : Status) (body after : List UInt8) : Prop :=
  ∃ word gap, body = word ++ (gap ++ after) ∧ (∀ b ∈ word, Ascii.isLetter b = true) ∧
    Ascii.sameName status.name (Utf8.decode word) = true ∧ (∀ b ∈ gap, Token.isGap b = true) ∧
    Ends Token.isGap after ∧ (gap = [] → after = [])

/-- The code of a condition and the text behind it. A code is the front of what stands between
an opening bracket and the next closing one, up to a space if there is one, in capitals; a
bracket that is never closed belongs to the text. -/
inductive Coded : List UInt8 → Option String → List UInt8 → Prop
  | code {name args gap text : List UInt8} (word : space ∉ name ∧ closeCode ∉ name)
      (inside : closeCode ∉ args ∧ (args = [] ∨ args.head? = some space))
      (all : ∀ b ∈ gap, Token.isGap b = true) (ends : Ends Token.isGap text) :
      Coded (openCode :: (name ++ args ++ closeCode :: (gap ++ text)))
        (some (Ascii.upper (Utf8.decode name))) text
  | plain {text : List UInt8}
      (opens : ∀ inside behind, text ≠ openCode :: (inside ++ closeCode :: behind)) :
      Coded text none text

/-- What a plus is followed by, less one space at its front, if one is there. -/
def Pays (body payload : List UInt8) : Prop :=
  body = space :: payload ∨ payload = body ∧ body.head? ≠ some space

/-- The lines that are responses. -/
def Accepted (line : List UInt8) : Prop :=
  (∃ body, line = plus :: body) ∨ (∃ body, line = star :: space :: body) ∨
    ∃ tag body status after, line = tag ++ space :: body ∧ tag ≠ [] ∧
      (∀ b ∈ tag, isTagByte b = true) ∧ Opens status body after

/-- What a response says for the line that it was read from. -/
inductive Says (line : List UInt8) (r : Response) : Prop
  | continuation {body payload : List UInt8} (heads : Heads line .continuation body)
      (pays : Pays body payload) (kind : r.isContinuation = true) (status : r.status? = none)
      (code : r.code? = none) (text : r.text? = some (Utf8.decode payload))
      (tokens : r.tokens = [.atom (Utf8.decode payload)])
  | untagged {body after text : List UInt8} {status : Status} {code : Option String}
      (heads : Heads line .untagged body) (opens : Opens status body after)
      (coded : Coded after code text) (kind : r.isUntagged = true)
      (status : r.status? = some status) (code : r.code? = code)
      (text : r.text? = some (Blank.trim (Utf8.decode text))) (tokens : r.tokens = [])
  | data {body : List UInt8} (heads : Heads line .untagged body)
      (other : ∀ status after, ¬ Opens status body after) (kind : r.isUntagged = true)
      (status : r.status? = none) (code : r.code? = none) (text : r.text? = none)
      (tokens : r.tokens = Token.ofBytes body)
  | completion {tag : String} {body after text : List UInt8} {status : Status}
      {code : Option String} (heads : Heads line (.tagged tag) body)
      (opens : Opens status body after) (coded : Coded after code text)
      (kind : r.tag? = some tag) (status : r.status? = some status) (code : r.code? = code)
      (text : r.text? = some (Blank.trim (Utf8.decode text))) (tokens : r.tokens = [])

theorem less_dropLastIf (b : UInt8) (bytes : List UInt8) : Less b bytes (dropLastIf b bytes) := by
  unfold dropLastIf
  split
  · rename_i last
    obtain ⟨front, rfl⟩ := List.getLast?_eq_some_iff.1 last
    exact .inl (by simp)
  · rename_i last
    exact .inr ⟨rfl, last⟩

theorem holds_chomp (raw : List UInt8) : Holds raw (chomp raw) :=
  ⟨_, less_dropLastIf _ _, less_dropLastIf _ _⟩

theorem pays_iff {payload : List UInt8} :
    Pays body payload ↔ payload = if body.head? = some space then body.tail else body := by
  constructor
  · rintro (rfl | ⟨rfl, other⟩)
    · simp
    · rw [if_neg other]
  · rintro rfl
    split
    · rename_i spaced
      obtain ⟨rest, rfl⟩ := List.head?_eq_some_iff.1 spaced
      exact .inl rfl
    · rename_i other
      exact .inr ⟨rfl, other⟩

theorem space_not_tag : isTagByte space = false := by decide

theorem heads_of_heading {heading : Heading} (h : heading? line = some (heading, body)) :
    Heads line heading body := by
  unfold heading? at h
  split at h
  · cases h
  · rename_i a r
    split at h
    · rename_i isPlus
      obtain ⟨rfl, rfl⟩ := Prod.mk.inj (Option.some.inj h)
      exact isPlus ▸ .continuation r
    split at h
    · rename_i starred
      obtain ⟨rfl, spaced⟩ := starred
      obtain ⟨rest, rfl⟩ := List.head?_eq_some_iff.1 spaced
      obtain ⟨rfl, rfl⟩ := Prod.mk.inj (Option.some.inj h)
      exact .untagged _
    rename_i notStar
    dsimp only at h
    have whole := List.takeWhile_append_dropWhile (p := isTagByte) (l := a :: r)
    split at h
    · rename_i b rest cut
      split at h
      · rename_i tagged
        obtain ⟨rfl, some⟩ := tagged
        obtain ⟨rfl, rfl⟩ := Prod.mk.inj (Option.some.inj h)
        rw [cut] at whole
        have other : (a :: r).takeWhile isTagByte ≠ [star] := by
          intro tag
          rw [tag] at whole
          obtain ⟨rfl, rfl⟩ := List.cons.inj whole
          exact notStar ⟨rfl, rfl⟩
        have heads := Heads.tagged rest some other fun b hb => List.mem_takeWhile_imp hb
        rwa [whole] at heads
      · cases h
    · cases h

theorem heading_of_heads {heading : Heading} (h : Heads line heading body) :
    heading? line = some (heading, body) := by
  cases h with
  | continuation => simp [heading?]
  | untagged => simp [heading?, star, plus]
  | @tagged tag _ some other all =>
    have ends : Ends isTagByte (space :: body) := by simpa using space_not_tag
    have run := Splitting.takeWhile_run all ends
    have rest := Splitting.dropWhile_run all ends
    cases tag with
    | nil => exact absurd rfl some
    | cons a tag =>
      have notPlus : a ≠ plus := by
        rintro rfl
        exact absurd (all plus (by simp)) (by decide)
      have notStar : ¬(a = star ∧ (tag ++ space :: body).head? = .some space) := by
        rintro ⟨rfl, spaced⟩
        cases tag with
        | nil => exact other rfl
        | cons b tag =>
          obtain rfl : b = space := by simpa using spaced
          exact absurd (all space (by simp)) (by decide)
      rw [List.cons_append] at run rest
      rw [List.cons_append, heading?, if_neg notPlus, if_neg notStar]
      simp only [run, rest, true_and, if_pos some]

theorem heading_iff {heading : Heading} :
    heading? line = some (heading, body) ↔ Heads line heading body :=
  ⟨heads_of_heading, heading_of_heads⟩

theorem gap_not_letter {b : UInt8} (h : Token.isGap b = true) : Ascii.isLetter b = false := by
  have either : b = 0x20 ∨ b = 0x09 := by simpa [Token.isGap] using h
  rcases either with rfl | rfl <;> decide

/-- The word of a status is all the letters at the front of a body. -/
theorem opens_iff : Opens status body after ↔
    Status.ofName? (Utf8.decode (body.takeWhile Ascii.isLetter)) = some status ∧
    (body.dropWhile Ascii.isLetter = [] ∨
      (body.dropWhile Ascii.isLetter).head?.any Token.isGap = true) ∧
    after = (body.dropWhile Ascii.isLetter).dropWhile Token.isGap := by
  rw [Status.ofName_iff]
  constructor
  · rintro ⟨word, gap, rfl, letters, named, all, ends, short⟩
    have stops : Ends Ascii.isLetter (gap ++ after) := by
      cases gap with
      | nil => simp [short rfl]
      | cons b gap => simpa using gap_not_letter (all b (by simp))
    rw [Splitting.takeWhile_run letters stops, Splitting.dropWhile_run letters stops,
      Splitting.dropWhile_run all ends]
    refine ⟨named, ?_, rfl⟩
    cases gap with
    | nil => exact .inl (by simp [short rfl])
    | cons b gap => exact .inr (by simp [all b (by simp)])
  · rintro ⟨named, closed, rfl⟩
    refine ⟨body.takeWhile Ascii.isLetter, (body.dropWhile Ascii.isLetter).takeWhile Token.isGap,
      ?_, fun b hb => List.mem_takeWhile_imp hb, named, fun b hb => List.mem_takeWhile_imp hb,
      Splitting.ends_dropWhile _ _, ?_⟩
    · rw [List.takeWhile_append_dropWhile, List.takeWhile_append_dropWhile]
    · intro none
      rcases closed with short | gapped
      · rw [short, List.dropWhile_nil]
      · cases rest : body.dropWhile Ascii.isLetter with
        | nil => rfl
        | cons b rest =>
          rw [rest] at none gapped
          have : Token.isGap b = true := by simpa using gapped
          simp [this] at none

theorem coded_of_code {name : String} (h : code? bytes = some (name, text)) :
    Coded bytes (some name) text := by
  unfold code? at h
  split at h
  · cases h
  · rename_i b r
    split at h
    · rename_i opened
      subst opened
      rcases Splitting.cut_first closeCode r with ⟨-, -, open'⟩ | ⟨front, rest, within, rfl, run, cut⟩
      · rw [open'] at h
        cases h
      · rw [cut, run] at h
        obtain ⟨rfl, rfl⟩ := Prod.mk.inj (Option.some.inj h)
        have gap : ∀ b ∈ rest.takeWhile Token.isGap, Token.isGap b = true :=
          fun b hb => List.mem_takeWhile_imp hb
        have ends := Splitting.ends_dropWhile Token.isGap rest
        have whole := List.takeWhile_append_dropWhile (p := Token.isGap) (l := rest)
        rcases Splitting.cut_first space front with
          ⟨spaceless, run, -⟩ | ⟨name, args, spaceless, rfl, run, -⟩
        · rw [run]
          have bare : closeCode ∉ ([] : List UInt8) := List.not_mem_nil
          have coded := Coded.code ⟨spaceless, within⟩ ⟨bare, .inl rfl⟩ gap ends
          rwa [whole, List.append_nil] at coded
        · rw [run]
          simp only [List.mem_append, not_or] at within
          have coded := Coded.code ⟨spaceless, within.1⟩ ⟨within.2, .inr rfl⟩ gap ends
          rwa [whole] at coded
    · cases h

theorem code_of_coded {name : String} (h : Coded bytes (some name) text) :
    code? bytes = some (name, text) := by
  cases h with
  | @code name args gap text word inside all ends =>
    have within : closeCode ∉ name ++ args := by simp [word.2, inside.1]
    have closes : Ends (fun b => decide (b ≠ closeCode)) (closeCode :: (gap ++ text)) := by simp
    have spaced : Ends (fun b => decide (b ≠ space)) args := by
      rcases inside.2 with rfl | starts
      · simp
      · obtain ⟨args, rfl⟩ := List.head?_eq_some_iff.1 starts
        simp
    simp only [code?, if_true, Splitting.dropWhile_run (Splitting.all_ne within) closes,
      Splitting.takeWhile_run (Splitting.all_ne within) closes,
      Splitting.takeWhile_run (Splitting.all_ne word.1) spaced, Splitting.dropWhile_run all ends]

/-- There is no code where no bracket at the front is closed. -/
theorem code_none : code? bytes = none ↔
    ∀ inside behind, bytes ≠ openCode :: (inside ++ closeCode :: behind) := by
  cases bytes with
  | nil => simp [code?]
  | cons b r =>
    by_cases opened : b = openCode
    · subst opened
      rcases Splitting.cut_first closeCode r with ⟨open', -, cut⟩ | ⟨front, rest, -, rfl, -, cut⟩
      · have none : code? (openCode :: r) = none := by simp only [code?, if_true, cut]
        refine ⟨fun _ inside behind same => open' ?_, fun _ => none⟩
        rw [(List.cons.inj same).2]
        simp
      · simp only [code?, if_true, cut, reduceCtorEq, false_iff, not_forall, not_not]
        exact ⟨front, rest, rfl⟩
    · simp [code?, opened]

theorem plain_of_coded (h : Coded bytes none text) :
    text = bytes ∧ ∀ inside behind, bytes ≠ openCode :: (inside ++ closeCode :: behind) := by
  cases h with
  | plain opens => exact ⟨rfl, opens⟩

/-- A code is given in capitals, so it is the same as a name in capitals only if it is that. -/
theorem sameName_coded (coded : Coded after code text) {name : String} (some : name ≠ "")
    (capital : Ascii.upper name = name) :
    Ascii.sameName (code.getD "") name = true ↔ code = .some name := by
  cases coded with
  | code word inside all ends => simp [Ascii.sameName_upper _ capital]
  | plain =>
    have other := Ascii.sameName_upper "" capital
    have none : Ascii.upper "" = "" := rfl
    rw [none] at other
    simp [other, Ne.symm some]

theorem conditionOf_iff {c : Condition} : conditionOf? body = some c ↔ ∃ after text,
    Opens c.status body after ∧ Coded after c.code text ∧
      c.text = Blank.trim (Utf8.decode text) := by
  constructor
  · intro h
    unfold conditionOf? at h
    dsimp only at h
    split at h
    · cases h
    · rename_i status named
      split at h
      · rename_i closed
        split at h
        · rename_i code text coded
          obtain rfl := Option.some.inj h
          exact ⟨_, text, opens_iff.2 ⟨named, closed, rfl⟩, coded_of_code coded, rfl⟩
        · rename_i plain
          obtain rfl := Option.some.inj h
          exact ⟨_, _, opens_iff.2 ⟨named, closed, rfl⟩, .plain (code_none.1 plain), rfl⟩
      · cases h
  · rintro ⟨after, text, opens, coded, trimmed⟩
    obtain ⟨status, code, shown⟩ := c
    obtain ⟨named, closed, front⟩ := opens_iff.1 opens
    obtain rfl : shown = _ := trimmed
    rw [conditionOf?, named]
    cases code with
    | some name => simp only [if_pos closed, ← front, code_of_coded coded]
    | none =>
      obtain ⟨rfl, plain⟩ := plain_of_coded coded
      simp only [if_pos closed, ← front, code_none.2 plain]

/-- A body without the word of a status is no condition. -/
theorem conditionOf_none : conditionOf? body = none ↔ ∀ status after, ¬ Opens status body after := by
  constructor
  · intro none status after opens
    obtain ⟨named, closed, -⟩ := opens_iff.1 opens
    simp only [conditionOf?, named, if_pos closed] at none
    split at none <;> cases none
  · intro other
    cases made : conditionOf? body with
    | none => rfl
    | some c =>
      obtain ⟨after, -, opens, -⟩ := conditionOf_iff.1 made
      exact absurd opens (other _ _)

/-- What a response says is told by the phrasing of its line. -/
theorem says_of_message {m : Message} (h : messageOf? line = some m) : Says line ⟨m, raw⟩ := by
  unfold messageOf? at h
  split at h
  · cases h
  · rename_i body heading
    obtain rfl := Option.some.inj h
    exact .continuation (heading_iff.1 heading) (pays_iff.2 rfl) rfl rfl rfl rfl rfl
  · rename_i body heading
    have heads := heading_iff.1 heading
    split at h
    · rename_i c condition
      obtain rfl := Option.some.inj h
      obtain ⟨after, text, opens, coded, trimmed⟩ := conditionOf_iff.1 condition
      exact .untagged heads opens coded rfl rfl rfl (by rw [← trimmed]; rfl) rfl
    · rename_i other
      obtain rfl := Option.some.inj h
      have tokens : ∀ ts, Response.tokens ⟨.data ts, raw⟩ = ts := fun _ => rfl
      exact .data heads (conditionOf_none.1 other) rfl rfl rfl rfl (tokens _)
  · rename_i tag body heading
    obtain ⟨c, condition, rfl⟩ := Option.map_eq_some_iff.1 h
    obtain ⟨after, text, opens, coded, trimmed⟩ := conditionOf_iff.1 condition
    exact .completion (heading_iff.1 heading) opens coded rfl rfl rfl (by rw [← trimmed]; rfl) rfl

/-- The code of a completion that is read stands on its line. -/
theorem coded_of_completion {tag : String} {c : Condition} (read : response? raw = some r)
    (completes : r.message = .completion tag c) : ∃ after text, Coded after c.code text := by
  obtain ⟨m, made, rfl⟩ := Option.map_eq_some_iff.1 read
  obtain rfl : m = _ := completes
  have phrased : Says (chomp raw) ⟨.completion tag c, raw⟩ := says_of_message made
  cases phrased with
  | completion heads opens coded kind status code =>
    obtain rfl : c.code = _ := code
    exact ⟨_, _, coded⟩
  | continuation _ _ kind | untagged _ _ _ kind | data _ _ kind => cases kind

/-- A line that is phrased as a response is accepted, and no other is. -/
theorem accepted_iff : (messageOf? line).isSome = true ↔ Accepted line := by
  constructor
  · intro made
    obtain ⟨m, made⟩ := Option.isSome_iff_exists.1 made
    have phrased : Says line ⟨m, line⟩ := says_of_message made
    cases phrased with
    | continuation heads => cases heads with | continuation => exact .inl ⟨_, rfl⟩
    | untagged heads | data heads =>
      cases heads with | untagged => exact .inr (.inl ⟨_, rfl⟩)
    | completion heads opens =>
      cases heads with
      | tagged _ some other all => exact .inr (.inr ⟨_, _, _, _, rfl, some, all, opens⟩)
  · have starred : ∀ body, (messageOf? (star :: space :: body)).isSome = true := by
      intro body
      rw [messageOf?, heading_iff.2 (.untagged body)]
      dsimp only
      split <;> rfl
    rintro (⟨body, rfl⟩ | ⟨body, rfl⟩ | ⟨tag, body, status, after, rfl, some, all, opens⟩)
    · rw [messageOf?, heading_iff.2 (.continuation body)]
      rfl
    · exact starred body
    · by_cases other : tag = [star]
      · exact other ▸ starred body
      · rw [messageOf?, heading_iff.2 (.tagged body some other all)]
        cases made : conditionOf? body with
        | some c => simp [made]
        | none => exact absurd opens (conditionOf_none.1 made _ _)

/-- Exactly the accepted lines are read, and a response says what its line says: it keeps its
bytes, and where it completes a command it has a status. -/
theorem response_exact (raw : List UInt8) : ∃ line, Holds raw line ∧
    ((response? raw).isSome = true ↔ Accepted line) ∧
    ∀ r, response? raw = some r →
      r.raw = raw ∧ Says line r ∧ (r.isCompletion = true → r.status?.isSome = true) := by
  refine ⟨chomp raw, holds_chomp raw, ?_, ?_⟩
  · rw [response?, Option.isSome_map]
    exact accepted_iff
  · intro r read
    obtain ⟨m, made, rfl⟩ := Option.map_eq_some_iff.1 read
    refine ⟨rfl, says_of_message made, fun completes => ?_⟩
    cases m with
    | completion tag c => rfl
    | continuation | untagged | data => cases completes

end Line

end ImapSession
