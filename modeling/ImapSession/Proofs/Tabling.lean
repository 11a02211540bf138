import Mathlib.Data.List.Nodup
import Mathlib.Data.List.Perm.Basic
import ImapSession.Proofs.Acceptance

/-!
What a list of directives comes to: a table in which each key stands once, with the value
that counts. A list that was written with distinct keys comes to the table of what was
written, in whichever way the values were written and with whatever blanks; and the client's
answer comes to the nine entries that it is made of.
-/
namespace ImapSession

namespace Directives

/-- Each element is kept once. -/
theorem nodup_eraseDups {α : Type} [BEq α] [LawfulBEq α] (l : List α) : l.eraseDups.Nodup := by
  generalize size : l.length = n
  induction n using Nat.strongRecOn generalizing l with
  | ind n ih =>
    cases l with
    | nil => simp
    | cons a l =>
      have shorter : (l.filter fun b => !b == a).length < n := by
        have := List.length_filter_le (fun b => !b == a) l
        rw [List.length_cons] at size
        omega
      rw [List.eraseDups_cons, List.nodup_cons]
      exact ⟨by simp, ih _ shorter _ rfl⟩

/-- A key that is given has a value. -/
theorem find_of_given {ds : List (String × String)} {key : String} (h : key ∈ ds.map Prod.fst) :
    ∃ value, find? ds key = some value := by
  obtain ⟨d, given, rfl⟩ := List.mem_map.1 h
  have found : (ds.reverse.lookup d.1).isSome :=
    List.lookup_isSome_iff.2 ⟨d, List.mem_reverse.2 given, beq_self_eq_true _⟩
  exact Option.isSome_iff_exists.1 found

/-- The table holds what is found. -/
theorem mem_table {ds : List (String × String)} {key value : String} :
    (key, value) ∈ table ds ↔ find? ds key = some value := by
  simp only [table, List.mem_map, List.mem_mergeSort, List.mem_eraseDups]
  constructor
  · rintro ⟨k, ⟨d, given, rfl⟩, same⟩
    obtain ⟨rfl, rfl⟩ := Prod.mk.inj same
    obtain ⟨value, found⟩ := find_of_given (List.mem_map.2 ⟨d, given, rfl⟩)
    rw [found, Option.getD_some]
  · intro found
    exact ⟨key, ⟨_, mem_of_find found, rfl⟩, by rw [found, Option.getD_some]⟩

/-- The table holds each key once. -/
theorem nodup_table (ds : List (String × String)) : ((table ds).map Prod.fst).Nodup := by
  have keys : (table ds).map Prod.fst =
      (ds.map Prod.fst).eraseDups.mergeSort fun a b => !decide (b < a) := by
    simp [table, Function.comp_def]
  rw [keys]
  exact (List.mergeSort_perm _ _).nodup_iff.2 (nodup_eraseDups _)

/-- The message comes to these entries: their keys have these values, no other key has one, and
they are all that stands in the table. -/
structure ComesTo (message : String) (entries : List (String × String)) : Prop where
  found : ∀ key value, find? (ofText message) key = some value ↔ (key, value) ∈ entries
  table : (table (ofText message)).Perm entries

/-- Directives with distinct keys are themselves the table. -/
theorem comesTo_of_distinct {message : String} {ds : List (String × String)}
    (read : ofText message = ds) (distinct : (ds.map Prod.fst).Nodup) : ComesTo message ds := by
  have found : ∀ key value, find? (ofText message) key = some value ↔ (key, value) ∈ ds := by
    intro key value
    rw [read]
    exact ⟨mem_of_find, find_of_mem distinct⟩
  refine ⟨found, ?_⟩
  have once := List.Nodup.of_map Prod.fst (nodup_table (ofText message))
  refine (List.perm_ext_iff_of_nodup once (.of_map Prod.fst distinct)).2 fun ⟨key, value⟩ => ?_
  rw [mem_table, found]

/-- A list comes to what was written in it, if no two of its keys are the same in lower case;
and so does the client's answer, whatever it is made of. -/
theorem comesTo_listed :
    (∀ es : List Entry, (es.map Entry.name).Nodup →
      ComesTo (String.ofList (listed es)) (es.map Entry.said)) ∧
    ∀ x : Exchange, ComesTo x.answer [("charset", "utf-8"), ("username", x.username),
      ("realm", x.realm), ("nonce", x.nonce), ("nc", "00000001"), ("cnonce", x.clientNonce),
      ("digest-uri", x.uri), ("response", x.clientProof), ("qop", "auth")] := by
  constructor
  · intro es distinct
    have read : ofText (String.ofList (listed es)) = es.map Entry.said := by
      simp [ofText]
    refine comesTo_of_distinct read ?_
    rw [List.map_map]
    exact distinct
  · intro x
    exact comesTo_of_distinct x.directives_answer (by simp)

def Gap.of (chars : List Char) (blank : chars.all Blank.isBlank) : Gap :=
  ⟨chars, List.all_eq_true.1 blank⟩

/-- A quoted value with what looks like directives and a line end in it. -/
def realmEntry : Entry where
  key := "Realm".toList
  value := .quoted "a,\nnonce=\"x\\y\", qop"
  front := .none
  before := .of [' ', '\t'] (by decide)
  behind := .of ['\u00a0'] (by decide)
  back := .of [' '] (by decide)
  named := by decide
  spelled := List.all_eq_true.1 (by decide)

/-- A bare value with a quote and a sign in it. -/
def nonceEntry : Entry where
  key := "NONCE".toList
  value := .bare "x\"y = z\"" (by decide) (by decide) (by decide)
  front := .of ['\n'] (by decide)
  before := .none
  behind := .none
  back := .of ['\u2028'] (by decide)
  named := by decide
  spelled := List.all_eq_true.1 (by decide)

/-- An empty value. -/
def staleEntry : Entry :=
  { Entry.tight "stale_2" (.bare "" (by decide) (by decide) (by decide)) (by decide) with
    behind := .of [' '] (by decide) }

theorem comesTo_entries :
    let es := [realmEntry, nonceEntry, staleEntry]
    (es.map Entry.name).Nodup ∧ String.ofList (listed es) =
        "Realm \t=\u00a0\"a,\nnonce=\\\"x\\\\y\\\", qop\" ,\nNONCE=x\"y = z\"\u2028,stale_2= " ∧
      ComesTo (String.ofList (listed es))
        [("realm", "a,\nnonce=\"x\\y\", qop"), ("nonce", "x\"y = z\""), ("stale_2", "")] := by
  intro es
  have distinct : (es.map Entry.name).Nodup := by decide
  exact ⟨distinct, by decide +kernel, comesTo_listed.1 es distinct⟩

end Directives

end ImapSession
