import Mathlib.Data.List.TakeWhile
import ImapSession.Proofs.Decoding
import ImapSession.Proofs.Splitting
import ImapSession.Response.Basic

/-!
Decoding bytes that need not be UTF-8. What is broken is mended by replacement characters, but
the first 128 bytes are never drawn into that: each of them is read as the character it is,
whatever stands around it, and no such character is read from anything else. So a text can be
cut at them as its bytes are, and a response is shown without its line end and whole.
-/
namespace ImapSession.Utf8

/-- What a first byte can promise. -/
theorem lead_cases (b : UInt8) : b.toNat < 0x80 ∧ lead b = .one ∨ lead b = .none ∨
    (0xc2 ≤ b.toNat ∧ b.toNat < 0xe0) ∧ lead b = .two ∨
    (0xe0 ≤ b.toNat ∧ b.toNat < 0xf0) ∧ lead b = .three
      (if b.toNat = 0xe0 then 0xa0 else 0x80) (if b.toNat = 0xed then 0x9f else 0xbf) ∨
    (0xf0 ≤ b.toNat ∧ b.toNat ≤ 0xf4) ∧ lead b = .four
      (if b.toNat = 0xf0 then 0x90 else 0x80) (if b.toNat = 0xf4 then 0x8f else 0xbf) := by
  by_cases h₁ : b.toNat < 0x80
  · exact .inl ⟨h₁, lead_one h₁⟩
  by_cases h₂ : b.toNat < 0xc2
  · refine .inr (.inl ?_)
    have small : ¬ b < 0x80 := by rwa [UInt8.lt_iff_toNat_lt]
    have none : b < 0xc2 := UInt8.lt_iff_toNat_lt.2 h₂
    rw [lead, if_neg small, if_pos none]
  by_cases h₃ : b.toNat < 0xe0
  · exact .inr (.inr (.inl ⟨⟨by omega, h₃⟩, lead_two (by omega) h₃⟩))
  by_cases h₄ : b.toNat < 0xf0
  · exact .inr (.inr (.inr (.inl ⟨⟨by omega, h₄⟩, lead_three (by omega) h₄⟩)))
  by_cases h₅ : b.toNat ≤ 0xf4
  · exact .inr (.inr (.inr (.inr ⟨⟨by omega, h₅⟩, lead_four (by omega) h₅⟩)))
  · refine .inr (.inl ?_)
    have all : ∀ v < 256, 0xf4 < v → lead (UInt8.ofNat v) = .none := by decide +kernel
    have none := all b.toNat b.toNat_lt (by omega)
    rwa [UInt8.ofNat_toNat] at none

/-- What continues a character is none of the first 128 bytes. -/
theorem isTail_small {a : UInt8} (small : a.toNat < 0x80) : isTail a = false := by
  have below : ¬ (0x80 : UInt8) ≤ a := by
    rw [UInt8.le_iff_toNat_le]
    exact Nat.not_le.2 small
  simp [isTail, below]

/-- None of the first 128 bytes is within the bounds that a first byte sets. -/
theorem bounds_small {a b low high : UInt8} (small : a.toNat < 0x80)
    (h : lead b = .three low high ∨ lead b = .four low high) :
    ¬(decide (low ≤ a) && decide (a ≤ high)) = true := by
  have above : 0x80 ≤ low.toNat := by
    rcases lead_cases b with ⟨-, made⟩ | made | ⟨-, made⟩ | ⟨-, made⟩ | ⟨-, made⟩
    · simp [made] at h
    · simp [made] at h
    · simp [made] at h
    · obtain ⟨rfl, -⟩ : _ = low ∧ _ = high := by simpa [made] using h
      split <;> decide
    · obtain ⟨rfl, -⟩ : _ = low ∧ _ = high := by simpa [made] using h
      split <;> decide
  simp only [Bool.and_eq_true, decide_eq_true_eq, UInt8.le_iff_toNat_le, not_and]
  omega

/-- A byte below 128 is a character of its own, whatever the bytes around it. -/
theorem decodeOnto_small (done : List Char) (x : List UInt8) {a : UInt8} (small : a.toNat < 0x80)
    (r : List UInt8) : decodeOnto done (x ++ a :: r) =
      decodeOnto (Char.ofNat a.toNat :: (decodeOnto done x).reverse) r := by
  have single : ∀ done, decodeOnto done (a :: r) = decodeOnto (Char.ofNat a.toNat :: done) r := by
    intro done
    rw [decodeOnto.eq_def]
    simp only [lead_one small]
  have notTail := isTail_small small
  fun_induction decodeOnto done x with
  | case1 => simp [single]
  | case7 done b low high leads =>
    have within := bounds_small small (.inl leads)
    rw [List.cons_append, decodeOnto.eq_def]
    simp only [leads, List.nil_append, if_neg within, single, List.reverse_reverse]
  | case12 done b low high leads =>
    have within := bounds_small small (.inr leads)
    rw [List.cons_append, decodeOnto.eq_def]
    simp only [leads, List.nil_append, if_neg within, single, List.reverse_reverse]
  | case11 done b low high leads b' s within ih | case18 done b low high leads b' s within ih =>
    rw [List.cons_append, decodeOnto.eq_def]
    simp only [leads, List.cons_append, if_neg within]
    exact ih
  | _ =>
    rw [List.cons_append, decodeOnto.eq_def]
    simp_all

/-- A number that is no surrogate is that of its character. -/
theorem toNat_scalar {n : Nat} (h : n < 0xd800 ∨ 0xdfff < n ∧ n < 0x110000) :
    (Char.ofNat n).toNat = n := by
  have valid : n.isValidChar := h
  rw [Char.ofNat, dif_pos valid]
  rfl

theorem tailBits_lt (b : UInt8) : tailBits b < 64 := Nat.mod_lt _ (by decide)

/-- No character that takes more than one byte is below 128. -/
theorem two_large {a : UInt8} (b : UInt8) (leads : lead a = .two) :
    0x80 ≤ (Char.ofNat (a.toNat % 32 * 64 + tailBits b)).toNat := by
  have bits := tailBits_lt b
  rcases lead_cases a with ⟨-, made⟩ | made | ⟨range, -⟩ | ⟨-, made⟩ | ⟨-, made⟩
  · simp [made] at leads
  · simp [made] at leads
  · rw [toNat_scalar (by omega)]
    omega
  · simp [made] at leads
  · simp [made] at leads

theorem three_large {a b low high : UInt8} (c : UInt8) (leads : lead a = .three low high)
    (within : (decide (low ≤ b) && decide (b ≤ high)) = true) :
    0x80 ≤ (Char.ofNat ((a.toNat % 16 * 64 + tailBits b) * 64 + tailBits c)).toNat := by
  have bits := tailBits_lt c
  simp only [Bool.and_eq_true, decide_eq_true_eq, UInt8.le_iff_toNat_le] at within
  rcases lead_cases a with ⟨-, made⟩ | made | ⟨-, made⟩ | ⟨range, made⟩ | ⟨-, made⟩
  · simp [made] at leads
  · simp [made] at leads
  · simp [made] at leads
  · obtain ⟨rfl, rfl⟩ : _ = low ∧ _ = high := by simpa [made] using leads
    have range' : (a.toNat = 0xe0 → 0xa0 ≤ b.toNat) ∧ (a.toNat = 0xed → b.toNat ≤ 0x9f) ∧
        0x80 ≤ b.toNat ∧ b.toNat ≤ 0xbf := by
      obtain ⟨low, high⟩ := within
      split at low <;> split at high <;> simp at low high <;> omega
    unfold tailBits at *
    rw [toNat_scalar (by omega)]
    omega
  · simp [made] at leads

theorem four_large {a b low high : UInt8} (c d : UInt8) (leads : lead a = .four low high)
    (within : (decide (low ≤ b) && decide (b ≤ high)) = true) : 0x80 ≤
      (Char.ofNat (((a.toNat % 8 * 64 + tailBits b) * 64 + tailBits c) * 64 + tailBits d)).toNat := by
  have bits := tailBits_lt c
  have bits' := tailBits_lt d
  simp only [Bool.and_eq_true, decide_eq_true_eq, UInt8.le_iff_toNat_le] at within
  rcases lead_cases a with ⟨-, made⟩ | made | ⟨-, made⟩ | ⟨-, made⟩ | ⟨range, made⟩
  · simp [made] at leads
  · simp [made] at leads
  · simp [made] at leads
  · simp [made] at leads
  · obtain ⟨rfl, rfl⟩ : _ = low ∧ _ = high := by simpa [made] using leads
    have range' : (a.toNat = 0xf0 → 0x90 ≤ b.toNat) ∧ (a.toNat = 0xf4 → b.toNat ≤ 0x8f) ∧
        0x80 ≤ b.toNat ∧ b.toNat ≤ 0xbf := by
      obtain ⟨low, high⟩ := within
      split at low <;> split at high <;> simp at low high <;> omega
    unfold tailBits at *
    rw [toNat_scalar (by omega)]
    omega

/-- A character below 128 stands for a byte of its own. -/
theorem mem_decodeOnto {done : List Char} {bytes : List UInt8} {c : Char}
    (h : c ∈ decodeOnto done bytes) (small : c.toNat < 0x80) :
    c ∈ done ∨ ∃ b ∈ bytes, c = Char.ofNat b.toNat := by
  have notLarge : ∀ {d : Char}, 0x80 ≤ d.toNat → c ≠ d := by
    rintro d large rfl
    omega
  have notReplacement : c ≠ replacement := notLarge (by decide)
  have past : ∀ {d : Char} {done : List Char} {rest all : List UInt8}, c ≠ d → rest <:+ all →
      (c ∈ d :: done ∨ ∃ b ∈ rest, c = Char.ofNat b.toNat) →
      c ∈ done ∨ ∃ b ∈ all, c = Char.ofNat b.toNat := by
    rintro d done rest all other more (mem | ⟨b, hb, same⟩)
    · exact .inl ((List.mem_cons.1 mem).resolve_left other)
    · exact .inr ⟨b, more.subset hb, same⟩
  fun_induction decodeOnto done bytes with
  | case1 done => exact .inl (List.mem_reverse.1 h)
  | case2 done b s leads ih =>
    rcases ih h with mem | ⟨b', hb, same⟩
    · rcases List.mem_cons.1 mem with same | mem
      · exact .inr ⟨b, by simp, same⟩
      · exact .inl mem
    · exact .inr ⟨b', by simp [hb], same⟩
  | case5 done a leads b s tail ih =>
    exact past (notLarge (two_large b leads)) ⟨[_, _], rfl⟩ (ih h)
  | case9 done a low high leads b within c' s tail ih =>
    exact past (notLarge (three_large c' leads within)) ⟨[_, _, _], rfl⟩ (ih h)
  | case15 done a low high leads b within c' tail d s tail' ih =>
    exact past (notLarge (four_large c' d leads within)) ⟨[_, _, _, _], rfl⟩ (ih h)
  | case4 | case7 | case8 | case12 | case13 | case14 =>
    exact .inl (by simpa [notReplacement] using h)
  | case3 _ _ _ _ ih => exact past notReplacement ⟨[_], rfl⟩ (ih h)
  | case6 _ _ _ _ _ _ ih => exact past notReplacement ⟨[_], rfl⟩ (ih h)
  | case11 _ _ _ _ _ _ _ _ ih | case18 _ _ _ _ _ _ _ _ ih =>
    exact past notReplacement ⟨[_], rfl⟩ (ih h)
  | case10 _ _ _ _ _ _ _ _ _ _ ih | case17 _ _ _ _ _ _ _ _ _ _ ih =>
    exact past notReplacement ⟨[_, _], rfl⟩ (ih h)
  | case16 _ _ _ _ _ _ _ _ _ _ _ _ ih => exact past notReplacement ⟨[_, _, _], rfl⟩ (ih h)

/-- What was read before stays in front. -/
theorem decodeOnto_append (done more : List Char) (bytes : List UInt8) :
    decodeOnto (more ++ done) bytes = done.reverse ++ decodeOnto more bytes := by
  fun_induction decodeOnto more bytes with
  | case1 => simp [decodeOnto]
  | case11 more b low high leads b' s within ih | case18 more b low high leads b' s within ih =>
    rw [decodeOnto.eq_def]
    simp only [leads, if_neg within]
    exact ih
  | _ =>
    rw [decodeOnto.eq_def]
    simp_all

/-- The text of some bytes is cut at a byte below 128 as the bytes are. -/
theorem decode_append_small (x : List UInt8) {a : UInt8} (small : a.toNat < 0x80) (r : List UInt8) :
    (decode (x ++ a :: r)).toList =
      (decode x).toList ++ Char.ofNat a.toNat :: (decode r).toList := by
  have front := decodeOnto_append (Char.ofNat a.toNat :: (decodeOnto [] x).reverse) [] r
  rw [List.nil_append] at front
  simp only [decode, String.toList_ofList, decodeOnto_small _ _ small, front]
  simp

theorem mem_decode {bytes : List UInt8} {c : Char} (h : c ∈ (decode bytes).toList)
    (small : c.toNat < 0x80) : ∃ b ∈ bytes, c = Char.ofNat b.toNat := by
  rw [decode, String.toList_ofList] at h
  simpa using mem_decodeOnto h small

/-- A row of characters below 128 is picked from the text as it is from the bytes. -/
theorem filter_decode {p : Char → Bool} (small : ∀ c, p c = true → c.toNat < 0x80)
    (bytes : List UInt8) : (decode bytes).toList.filter p =
      (bytes.filter fun b => p (Char.ofNat b.toNat)).map fun b => Char.ofNat b.toNat := by
  have value : ∀ b : UInt8, (Char.ofNat b.toNat).toNat = b.toNat := fun b =>
    toNat_scalar (.inl (Nat.lt_trans b.toNat_lt (by decide)))
  generalize hn : bytes.length = n
  induction n using Nat.strongRecOn generalizing bytes with
  | ind n ih =>
    have parts := List.takeWhile_append_dropWhile
      (p := fun b => !p (Char.ofNat b.toNat)) (l := bytes)
    have other : ∀ b ∈ bytes.takeWhile (fun b => !p (Char.ofNat b.toNat)),
        p (Char.ofNat b.toNat) = false := fun b hb => by simpa using List.mem_takeWhile_imp hb
    have none : (decode (bytes.takeWhile fun b => !p (Char.ofNat b.toNat))).toList.filter p = [] := by
      refine List.filter_eq_nil_iff.2 fun c hc picked => ?_
      obtain ⟨b, hb, rfl⟩ := mem_decode hc (small c picked)
      simp [other b hb] at picked
    have before : (bytes.takeWhile fun b => !p (Char.ofNat b.toNat)).filter
        (fun b => p (Char.ofNat b.toNat)) = [] :=
      List.filter_eq_nil_iff.2 fun b hb => by simp [other b hb]
    cases cut : bytes.dropWhile fun b => !p (Char.ofNat b.toNat) with
    | nil =>
      rw [cut, List.append_nil] at parts
      rw [parts] at none before
      rw [none, before, List.map_nil]
    | cons a rest =>
      have picked : p (Char.ofNat a.toNat) = true := by
        have stops := List.head?_dropWhile_not (fun b => !p (Char.ofNat b.toNat)) bytes
        rw [cut] at stops
        simpa using stops
      rw [cut] at parts
      have shorter : rest.length < n := by
        rw [← hn, ← parts, List.length_append, List.length_cons]
        omega
      have first := small _ picked
      rw [value] at first
      rw [← parts, decode_append_small _ first, List.filter_append, List.filter_append, none, before]
      simp [picked, ih _ shorter rest rfl]

end ImapSession.Utf8

namespace ImapSession

open Token (cr lf)

/-- A run at the end is dropped, and nothing in front of it. -/
theorem Blank.dropEnd_run {α : Type} {p : α → Bool} {l run : List α}
    (ends : Splitting.Ends p l.reverse) (all : ∀ a ∈ run, p a = true) : dropEnd p (l ++ run) = l := by
  have back : ∀ a ∈ run.reverse, p a = true := by simpa using all
  rw [dropEnd, List.reverse_append, Splitting.dropWhile_run back ends, List.reverse_reverse]

/-- A line is shown as the text that it is, if it does not end in more of a line end. -/
theorem Response.shown_line (m : Message) {x text : List UInt8} {a : UInt8} (small : a.toNat < 0x80)
    (clean : cr ∉ a :: text ∧ lf ∉ a :: text) :
    Response.shown ⟨m, x ++ a :: text ++ [cr, lf]⟩ = Utf8.decode (x ++ a :: text) := by
  have whole : (Utf8.decode (x ++ a :: text ++ [cr, lf])).toList =
      (Utf8.decode (x ++ a :: text)).toList ++ ['\r', '\n'] := by
    rw [Utf8.decode_append_small _ (by decide)]
    rfl
  have parted := Utf8.decode_append_small x small text
  have other : ∀ c ∈ Char.ofNat a.toNat :: (Utf8.decode text).toList, c ≠ '\r' ∧ c ≠ '\n' := by
    have inside : ∀ c ∈ Char.ofNat a.toNat :: (Utf8.decode text).toList, c.toNat < 0x80 →
        ∃ b ∈ a :: text, c = Char.ofNat b.toNat := by
      intro c hc below
      rcases List.mem_cons.1 hc with rfl | hc
      · exact ⟨a, by simp, rfl⟩
      · obtain ⟨b, hb, same⟩ := Utf8.mem_decode hc below
        exact ⟨b, by simp [hb], same⟩
    have bytes : ∀ v < 256, (Char.ofNat v = '\r' → UInt8.ofNat v = cr) ∧
        (Char.ofNat v = '\n' → UInt8.ofNat v = lf) := by decide +kernel
    intro c hc
    constructor
    · rintro rfl
      obtain ⟨b, hb, same⟩ := inside _ hc (by decide)
      have isCr := (bytes b.toNat b.toNat_lt).1 same.symm
      rw [UInt8.ofNat_toNat] at isCr
      exact clean.1 (isCr ▸ hb)
    · rintro rfl
      obtain ⟨b, hb, same⟩ := inside _ hc (by decide)
      have isLf := (bytes b.toNat b.toNat_lt).2 same.symm
      rw [UInt8.ofNat_toNat] at isLf
      exact clean.2 (isLf ▸ hb)
  have ends : Splitting.Ends (fun c => decide (c = '\r') || decide (c = '\n'))
      (Utf8.decode (x ++ a :: text)).toList.reverse := by
    rw [parted, List.reverse_append]
    refine Splitting.ends_append (by simp) (fun c hc => ?_) _
    simpa using other c (List.mem_reverse.1 hc)
  simp only [shown, whole]
  rw [Blank.dropEnd_run ends (by simp), String.ofList_toList]

end ImapSession
