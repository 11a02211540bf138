import ImapSession.Login.Directives
import ImapSession.Proofs.Splitting

/-!
Directive lists that were written as such. Between commas stand a key, an equals sign and
a value, with blanks anywhere around them; a value is any text between quotes, or text
that needs none. The scan of such a list gives its keys and values in order: nothing
inside a quoted value is taken for a directive, and no value ends early.
-/
namespace ImapSession

namespace Quoted

@[simp] theorem unescapeOnto_escape (done cs : List Char) :
    unescapeOnto done (escape cs) = done.reverse ++ cs := by
  induction cs generalizing done with
  | nil => simp [escape, unescapeOnto]
  | cons c cs ih =>
    have rest : escape (c :: cs) =
        (if c = '"' ∨ c = '\\' then ['\\', c] else [c]) ++ escape cs := rfl
    by_cases h : c = '"' ∨ c = '\\'
    · rw [rest, if_pos h, List.cons_append, List.singleton_append, unescapeOnto.eq_def]
      simp [ih]
    · have plain : c ≠ '\\' := fun h' => h (.inr h')
      rw [rest, if_neg h, List.singleton_append, unescapeOnto.eq_def]
      simp [plain, ih]

/-- What was escaped is found again. -/
@[simp] theorem unescape_escape (cs : List Char) :
    unescape (escape cs) = cs :=
  unescapeOnto_escape [] cs

end Quoted

namespace Blank

variable {cs gap : List Char}

/-- Blanks at the end are dropped with the others. -/
theorem strip_append (blank : ∀ c ∈ gap, isBlank c) : strip (cs ++ gap) = strip cs := by
  have none : gap.dropWhile isBlank = [] := by
    simpa using Splitting.dropWhile_run blank (Splitting.ends_nil _)
  have none' : gap.reverse.dropWhile isBlank = [] := by
    have blank' : ∀ c ∈ gap.reverse, isBlank c := by simpa using blank
    simpa using Splitting.dropWhile_run blank' (Splitting.ends_nil _)
  rw [strip, strip, List.dropWhile_append, none]
  by_cases h : (cs.dropWhile isBlank).isEmpty
  · simp [List.isEmpty_iff.1 h]
  · simp [h, dropEnd, List.dropWhile_append, none']

/-- A text that is trimmed does not begin with a blank. -/
theorem ends_of_strip (trimmed : strip cs = cs) : Splitting.Ends isBlank cs := by
  cases cs with
  | nil => simp
  | cons c cs =>
    cases h : isBlank c with
    | false => exact (Splitting.ends_cons _ _ _).2 h
    | true =>
      have front := (List.dropWhile_suffix (l := cs) isBlank).length_le
      have back := (List.dropWhile_suffix (l := (cs.dropWhile isBlank).reverse) isBlank).length_le
      have short := congrArg List.length trimmed
      simp only [strip, dropEnd, List.dropWhile_cons, h, if_true, List.length_reverse,
        List.length_cons] at short back
      omega

/-- Where there are no blanks, none are dropped. -/
theorem strip_fixed (none : ∀ c ∈ cs, isBlank c = false) : strip cs = cs := by
  have ends : ∀ l : List Char, (∀ c ∈ l, isBlank c = false) → l.dropWhile isBlank = l := by
    intro l hl
    exact @Splitting.dropWhile_run Char isBlank [] l (by simp) fun c hc =>
      hl c (List.mem_of_mem_head? hc)
  rw [strip, dropEnd, ends cs none, ends cs.reverse (by simpa using none), List.reverse_reverse]

end Blank

namespace Directives

structure Gap where
  chars : List Char
  blank : ∀ c ∈ chars, Blank.isBlank c

/-- A value as it is written: between quotes, or as it is if nothing in it needs them. -/
inductive Written where
  | quoted (text : String)
  | bare (text : String) (whole : ',' ∉ text.toList) (unquoted : text.toList.head? ≠ some '"')
    (trimmed : Blank.strip text.toList = text.toList)

def Written.text : Written → String
  | .quoted text => text
  | .bare text _ _ _ => text

def Written.chars : Written → List Char
  | .quoted text => (Quoted.encode text).toList
  | .bare text _ _ _ => text.toList

/-- A directive as it is written, with the blanks in front of its key, around the equals
sign and behind its value. -/
structure Entry where
  key : List Char
  value : Written
  front : Gap
  before : Gap
  behind : Gap
  back : Gap
  named : key ≠ []
  spelled : ∀ c ∈ key, isKeyChar c

namespace Entry

def chars (e : Entry) : List Char :=
  e.front.chars ++ e.key ++ e.before.chars ++ '=' :: e.behind.chars ++ e.value.chars ++ e.back.chars

def name (e : Entry) : String := String.ofList (e.key.map Char.toLower)

def said (e : Entry) : String × String := (e.name, e.value.text)

end Entry

/-- No blank belongs to a key. -/
theorem not_key_of_blank {c : Char} (h : Blank.isBlank c) : isKeyChar c = false := by
  cases key : isKeyChar c with
  | false => rfl
  | true =>
    delta isKeyChar Char.isAlphanum Char.isAlpha Char.isUpper Char.isLower Char.isDigit at key
    simp only [Bool.or_eq_true, Bool.and_eq_true, beq_iff_eq, decide_eq_true_eq,
      UInt32.le_iff_toNat_le, ← Char.toNat_inj, ge_iff_le] at key
    simp only [Blank.isBlank, Bool.or_eq_true, Bool.and_eq_true, beq_iff_eq, decide_eq_true_eq] at h
    have code : c.val.toNat = c.toNat := rfl
    simp only [code, Char.reduceToNat, Char.reduceVal, UInt32.reduceToNat] at key
    omega

/-- Characters of which keys are made need no quotes. -/
def Written.plain (text : String) (h : text.toList.all isKeyChar) : Written :=
  have keys : ∀ c ∈ text.toList, isKeyChar c := List.all_eq_true.1 h
  .bare text (fun hm => absurd (keys _ hm) (by decide))
    (fun hq => absurd (keys _ (List.mem_of_mem_head? hq)) (by decide))
    (Blank.strip_fixed fun c hc => by
      cases blank : Blank.isBlank c with
      | false => rfl
      | true => exact absurd (keys c hc) (by simp [not_key_of_blank blank]))

@[simp] theorem Written.text_quoted (text : String) : (Written.quoted text).text = text := rfl
@[simp] theorem Written.text_plain (text : String) (h : text.toList.all isKeyChar) :
    (Written.plain text h).text = text := rfl

/-- The inside of a quoted string ends where it was meant to. -/
@[simp] theorem insideOnto_escape (done cs r : List Char) :
    insideOnto done (Quoted.escape cs ++ '"' :: r) = some (done.reverse ++ Quoted.escape cs, r) := by
  induction cs generalizing done with
  | nil =>
    rw [insideOnto.eq_def]
    simp [Quoted.escape]
  | cons c cs ih =>
    have rest : Quoted.escape (c :: cs) =
        (if c = '"' ∨ c = '\\' then ['\\', c] else [c]) ++ Quoted.escape cs := rfl
    by_cases h : c = '"' ∨ c = '\\'
    · have noEnd : c ≠ '\n' := by rcases h with rfl | rfl <;> decide
      rw [rest, if_pos h, insideOnto.eq_def]
      simp [noEnd, ih]
    · obtain ⟨noQuote, plain⟩ := not_or.1 h
      rw [rest, if_neg h, insideOnto.eq_def]
      simp [noQuote, plain, ih]

/-- A quoted value is read up to its closing quote, whatever follows. -/
@[simp] theorem written_quoted (text : String) (r : List Char) :
    written ((Quoted.encode text).toList ++ r) = ((Quoted.encode text).toList, r) := by
  simp only [Quoted.encode, String.toList_ofList, List.cons_append, List.append_assoc,
    written, if_true, insideOnto_escape, List.reverse_nil, List.nil_append]

/-- A quoted value means what was quoted. -/
@[simp] theorem meaning_quoted (text : String) :
    meaning (Quoted.encode text).toList = text.toList := by
  have quote : Blank.isBlank '"' = false := by decide
  have whole : Blank.strip ('"' :: Quoted.escape text.toList ++ ['"']) =
      '"' :: Quoted.escape text.toList ++ ['"'] := by
    simp [Blank.strip, Blank.dropEnd, quote]
  rw [meaning, Quoted.encode, String.toList_ofList, whole]
  simp

/-- Nothing, or a comma and what is behind it. -/
def Behind (r : List Char) : Prop := r = [] ∨ ∃ s, r = ',' :: s

theorem comma_not_mem (g : Gap) : ',' ∉ g.chars := by
  intro h
  have := g.blank _ h
  contradiction

/-- A bare value is read up to the comma. -/
theorem written_bare {cs r : List Char} (nonempty : cs ≠ []) (whole : ',' ∉ cs)
    (unquoted : cs.head? ≠ some '"') (behind : Behind r) : written (cs ++ r) = (cs, r) := by
  have run : ∀ c ∈ cs, decide (c ≠ ',') = true := Splitting.all_ne whole
  have ends : Splitting.Ends (fun c => decide (c ≠ ',')) r := by
    rcases behind with rfl | ⟨s, rfl⟩
    · exact Splitting.ends_nil _
    · exact (Splitting.ends_cons _ _ _).2 (by simp)
  have taken := Splitting.takeWhile_run run ends
  have left := Splitting.dropWhile_run run ends
  cases cs with
  | nil => contradiction
  | cons c cs =>
    have noQuote : c ≠ '"' := by simpa using unquoted
    rw [List.cons_append] at taken left ⊢
    rw [written]
    simp only [noQuote, if_false, taken, left]

theorem written_none {r : List Char} (behind : Behind r) : written r = ([], r) := by
  rcases behind with rfl | ⟨s, rfl⟩
  · rfl
  · simp [written]

theorem ends_blank_of_behind {r : List Char} (behind : Behind r) : Splitting.Ends Blank.isBlank r := by
  rcases behind with rfl | ⟨s, rfl⟩
  · exact Splitting.ends_nil _
  · exact (Splitting.ends_cons _ _ _).2 (by decide)

/-- Blanks are passed over by the scan. -/
@[simp] theorem scan_gap (g : Gap) (r : List Char) : scan (g.chars ++ r) = scan r := by
  obtain ⟨cs, blank⟩ := g
  induction cs with
  | nil => rfl
  | cons c cs ih =>
    have plain := not_key_of_blank (blank c (by simp))
    rw [List.cons_append, scan, if_neg (by simp [plain])]
    exact ih fun d hd => blank d (by simp [hd])

/-- Commas are passed over by the scan. -/
@[simp] theorem scan_comma (r : List Char) : scan (',' :: r) = scan r := by
  rw [scan, if_neg (by decide)]

/-- What is read behind an equals sign. -/
theorem written_value (v : Written) (behind back : Gap) {r : List Char} (tail : Behind r) :
    ∃ value rest, written ((behind.chars ++ (v.chars ++ (back.chars ++ r))).dropWhile Blank.isBlank) =
        (value, rest) ∧ meaning value = v.text.toList ∧ scan rest = scan r := by
  cases v with
  | quoted text =>
    have ends : Splitting.Ends Blank.isBlank ((Quoted.encode text).toList ++ (back.chars ++ r)) := by
      simp only [Quoted.encode, String.toList_ofList, List.cons_append]
      exact (Splitting.ends_cons _ _ _).2 (by decide)
    rw [Splitting.dropWhile_run behind.blank (by exact ends)]
    exact ⟨_, _, written_quoted text _, by simp, by simp⟩
  | bare text whole unquoted trimmed =>
    simp only [Written.chars, Written.text]
    by_cases empty : text.toList = []
    · have oneGap : ∀ c ∈ behind.chars ++ back.chars, Blank.isBlank c := fun c hc =>
        (List.mem_append.1 hc).elim (behind.blank c) (back.blank c)
      have gone := Splitting.dropWhile_run oneGap (ends_blank_of_behind tail)
      rw [empty, List.nil_append, ← List.append_assoc, gone]
      exact ⟨_, _, written_none tail, rfl, rfl⟩
    · have front := Blank.ends_of_strip trimmed
      have ends : Splitting.Ends Blank.isBlank (text.toList ++ (back.chars ++ r)) := by
        cases h : text.toList with
        | nil => contradiction
        | cons c cs => rw [h] at front; exact front
      rw [Splitting.dropWhile_run behind.blank ends, ← List.append_assoc]
      refine ⟨_, _, written_bare (by simp [empty]) ?_ ?_ tail, ?_, rfl⟩
      · simp [whole, comma_not_mem]
      · cases h : text.toList with
        | nil => contradiction
        | cons c cs => simpa [h] using unquoted
      · rw [meaning, Blank.strip_append back.blank, trimmed]
        cases h : text.toList with
        | nil => contradiction
        | cons c cs =>
          have noQuote : c ≠ '"' := by simpa [h] using unquoted
          simp [noQuote]

/-- A directive is found where it stands, and the scan goes on behind it. -/
theorem scan_entry (e : Entry) {r : List Char} (tail : Behind r) :
    scan (e.chars ++ r) = e.said :: scan r := by
  obtain ⟨value, rest, read, tells, after⟩ := written_value e.value e.behind e.back tail
  cases hkey : e.key with
  | nil => exact absurd hkey e.named
  | cons k ks =>
    have spelled := e.spelled
    rw [hkey] at spelled
    have all : ∀ c ∈ ks, isKeyChar c := fun c hc => spelled c (by simp [hc])
    generalize hsign : '=' :: (e.behind.chars ++ (e.value.chars ++ (e.back.chars ++ r))) = sign
    have ends : Splitting.Ends isKeyChar (e.before.chars ++ sign) := by
      cases hb : e.before.chars with
      | nil => rw [← hsign]; exact (Splitting.ends_cons _ _ _).2 (by decide)
      | cons b bs =>
        exact (Splitting.ends_cons _ _ _).2 (not_key_of_blank (e.before.blank b (by simp [hb])))
    have found : afterKey? (e.before.chars ++ sign) = some (value, rest) := by
      have signEnds : Splitting.Ends Blank.isBlank sign := by
        rw [← hsign]
        exact (Splitting.ends_cons _ _ _).2 (by decide)
      rw [afterKey?, Splitting.dropWhile_run e.before.blank signEnds, ← hsign]
      simp only [if_true, read]
    have key : e.chars ++ r = e.front.chars ++ (k :: (ks ++ (e.before.chars ++ sign))) := by
      simp [Entry.chars, hkey, ← hsign]
    rw [key, scan_gap, scan, if_pos (spelled k (by simp)), Splitting.dropWhile_run all ends]
    split
    · rename_i value' rest' again
      rw [found] at again
      obtain ⟨rfl, rfl⟩ := Prod.mk.inj (Option.some.inj again)
      rw [Splitting.takeWhile_run all ends, tells, after, String.ofList_toList, Entry.said,
        Entry.name, hkey]
    · rename_i missed
      rw [found] at missed
      contradiction

def listed : List Entry → List Char
  | [] => []
  | [e] => e.chars
  | e :: es => e.chars ++ ',' :: listed es

@[simp] theorem listed_one (e : Entry) : listed [e] = e.chars := rfl
@[simp] theorem listed_more (e e' : Entry) (es : List Entry) :
    listed (e :: e' :: es) = e.chars ++ ',' :: listed (e' :: es) := rfl

/-- The scan of a list gives the directives that were listed. -/
@[simp] theorem scan_listed (es : List Entry) : scan (listed es) = es.map Entry.said := by
  induction es with
  | nil => rw [listed, scan]; rfl
  | cons e es ih =>
    cases es with
    | nil =>
      have one := scan_entry e (.inl rfl)
      rw [List.append_nil] at one
      rw [listed, one, scan]
      rfl
    | cons e' es =>
      rw [listed, scan_entry e (.inr ⟨_, rfl⟩), scan_comma, ih]
      · rfl
      · simp

/-- The value that a key was given once is found. -/
theorem find_of_mem {ds : List (String × String)} {key value : String}
    (distinct : (ds.map Prod.fst).Nodup) (h : (key, value) ∈ ds) : find? ds key = some value := by
  have reversed : (ds.reverse.map Prod.fst).Nodup := by
    rw [List.map_reverse]
    exact List.pairwise_reverse.2 (distinct.imp Ne.symm)
  have mem : (key, value) ∈ ds.reverse := List.mem_reverse.2 h
  rw [find?]
  generalize ds.reverse = l at reversed mem
  induction l with
  | nil => simp at mem
  | cons d l ih =>
    obtain ⟨key', value'⟩ := d
    obtain ⟨fresh, others⟩ := List.nodup_cons.1 reversed
    cases List.mem_cons.1 mem with
    | inl here =>
      obtain ⟨rfl, rfl⟩ := Prod.mk.inj here
      simp
    | inr later =>
      have other : (key == key') = false := by
        rw [beq_eq_false_iff_ne]
        rintro rfl
        exact fresh (List.mem_map.2 ⟨_, later, rfl⟩)
      rw [List.lookup_cons, other]
      exact ih others later

/-- A value that is found was given. -/
theorem mem_of_find {ds : List (String × String)} {key value : String}
    (h : find? ds key = some value) : (key, value) ∈ ds := by
  rw [find?] at h
  rw [← List.mem_reverse]
  generalize ds.reverse = l at h
  induction l with
  | nil => simp at h
  | cons d l ih =>
    obtain ⟨key', value'⟩ := d
    by_cases here : key = key'
    · subst here
      simp only [List.lookup_cons_self, Option.some.injEq] at h
      simp [h]
    · have other : (key == key') = false := by simpa using here
      rw [List.lookup_cons, other] at h
      exact List.mem_cons_of_mem _ (ih h)

end Directives

end ImapSession
