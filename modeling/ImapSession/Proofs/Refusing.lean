import ImapSession.Proofs.Mending
import ImapSession.Proofs.Phrasing
import ImapSession.Proofs.Wire

/-!
What a command fails with when it is completed without an OK. This is told by what the last
line of its answer says: a server that is out of service says so in its code, and of any other
refusal the line, the status, the text and the code are passed on. Codes are read in capitals,
so that a code either is the one that is looked for or has nothing to do with it.
-/
namespace ImapSession

namespace Line

variable {bytes : List UInt8} {text : String}

/-- Bytes as a text: all that they spell, but for the CRs and LFs at its end. -/
def Shows (bytes : List UInt8) (text : String) : Prop :=
  ∃ ends : List Char, (Utf8.decode bytes).toList = text.toList ++ ends ∧
    (∀ c ∈ ends, c = '\r' ∨ c = '\n') ∧ ∀ c, text.toList.getLast? = some c → c ≠ '\r' ∧ c ≠ '\n'

theorem shows_iff (m : Message) : Shows bytes text ↔ text = Response.shown ⟨m, bytes⟩ := by
  let lineEnd : Char → Bool := fun c => decide (c = '\r') || decide (c = '\n')
  have shown : Response.shown ⟨m, bytes⟩ =
      String.ofList (Blank.dropEnd lineEnd (Utf8.decode bytes).toList) := rfl
  have parts := List.takeWhile_append_dropWhile (p := lineEnd) (l := (Utf8.decode bytes).toList.reverse)
  rw [shown]
  constructor
  · rintro ⟨ends, spelled, all, stops⟩
    have stopped : Splitting.Ends lineEnd text.toList.reverse := by
      intro c hc
      rw [List.head?_reverse] at hc
      simpa [lineEnd] using stops c hc
    rw [spelled, Blank.dropEnd_run stopped (by simpa [lineEnd] using all), String.ofList_toList]
  · rintro rfl
    refine ⟨((Utf8.decode bytes).toList.reverse.takeWhile lineEnd).reverse, ?_, ?_, ?_⟩
    · rw [String.toList_ofList, Blank.dropEnd, ← List.reverse_append, parts, List.reverse_reverse]
    · intro c hc
      simpa [lineEnd] using List.mem_takeWhile_imp (List.mem_reverse.1 hc)
    · intro c hc
      rw [String.toList_ofList, Blank.dropEnd, List.getLast?_reverse] at hc
      simpa [lineEnd] using Splitting.ends_dropWhile lineEnd _ c hc

end Line

/-- The failure of a command that is completed by this response. -/
inductive Refuses (r : Response) : Failure → Prop
  | unavailable {tag text : String} {status : Status}
      (completes : r.message = .completion tag ⟨status, some "UNAVAILABLE", text⟩)
      (failed : status ≠ .ok) : Refuses r (.unavailable text)
  | command {tag text line : String} {status : Status} {code : Option String}
      (completes : r.message = .completion tag ⟨status, code, text⟩) (failed : status ≠ .ok)
      (other : code ≠ some "UNAVAILABLE") (shows : Line.Shows r.raw line) :
      Refuses r (.refused ⟨line, status.name, text, code.getD ""⟩)

namespace Refuses

variable {r : Response} {e : Failure}

theorem completion (h : Refuses r e) : r.isCompletion = true ∧ r.isOk = false := by
  obtain ⟨m, raw⟩ := r
  cases h with
  | unavailable completes failed | command completes failed =>
    obtain rfl : m = _ := completes
    exact ⟨rfl, by simpa [Response.isOk, Response.status?, Response.condition?] using failed⟩

end Refuses

/-- What is made of a response that was read is the one failure that it calls for. -/
theorem refuses_iff {r : Response} {e : Failure} (read : Line.response? r.raw = some r)
    (completes : r.isCompletion = true) (failed : r.isOk = false) :
    Refuses r e ↔ e = refusal r := by
  obtain ⟨m, raw⟩ := r
  obtain ⟨tag, ⟨status, code, text⟩, rfl⟩ := Response.message_completion completes
  have other : status ≠ .ok := by
    simpa [Response.isOk, Response.status?, Response.condition?] using failed
  obtain ⟨after, behind, coded⟩ := Line.coded_of_completion read rfl
  have absence : (Refusal.ofResponse ⟨.completion tag ⟨status, code, text⟩, raw⟩).ofAbsence = true ↔
      code = some "UNAVAILABLE" := Line.sameName_coded coded (by decide) rfl
  have shown : ∀ line, Line.Shows raw line ↔
      line = Response.shown ⟨.completion tag ⟨status, code, text⟩, raw⟩ := fun _ => Line.shows_iff _
  rw [refusal]
  constructor
  · intro h
    cases h with
    | unavailable completes =>
      cases completes
      rw [if_pos (absence.2 rfl)]
      rfl
    | command completes _ present shows =>
      cases completes
      rw [if_neg (mt absence.1 present), (shown _).1 shows]
      rfl
  · rintro rfl
    by_cases present : code = some "UNAVAILABLE"
    · subst present
      rw [if_pos (absence.2 rfl)]
      exact .unavailable rfl other
    · rw [if_neg (mt absence.1 present)]
      exact .command rfl other present ((shown _).2 rfl)

end ImapSession
