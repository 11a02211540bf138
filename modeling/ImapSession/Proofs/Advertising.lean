import ImapSession.Proofs.Counting
import ImapSession.Proofs.Offering

/-!
Offers of capabilities on any number of lines, with remarks between them. Of these lines a
strict grammar takes some, and the tokens of the others are read in its place. Which lines
it takes makes no difference to the names that can be found.
-/
namespace ImapSession

namespace Capabilities

/-- A strict grammar. It may take any lines that offer names, as long as it says these names
in order and up to letter case, and takes no condition for one of them. -/
structure Grammar where
  names? : List UInt8 → Option (List String)
  offers {row : List Capability} {ns : List String} (strict : names? (offer row).raw = some ns) :
    ns.map Ascii.lower = row.map Capability.lower
  conditions {raw : List UInt8} {r : Response} {c : Condition} (read : Line.response? raw = some r)
    (status : r.message = .untagged c) : names? raw = none

namespace Grammar

def used : Grammar := ⟨strictLine?, strictLine_offer, strictLine_condition⟩

/-- The names on one untagged line, by the tokens where the grammar does not take it. -/
def ofLine (g : Grammar) (r : Response) : List String := (g.names? r.raw).getD (plain r)

def ofResponses (g : Grammar) (rs : List Response) (disabled : List String) : Capabilities :=
  let names := (rs.filter Response.isUntagged).flatMap g.ofLine
  ⟨(names.filter fun n => !isDisabled disabled n).eraseDups⟩

theorem ofLine_used (r : Response) : used.ofLine r = Capabilities.ofLine r := by
  rw [ofLine, Capabilities.ofLine]
  cases h : strictLine? r.raw <;> simp only [used, h, Option.getD_some, Option.getD_none, plain]

theorem ofResponses_used (rs : List Response) (disabled : List String) :
    used.ofResponses rs disabled = Capabilities.ofResponses rs disabled := by
  rw [ofResponses, Capabilities.ofResponses, funext ofLine_used]

theorem ofLine_offer (g : Grammar) (row : List Capability) :
    (g.ofLine (offer row)).map Ascii.lower = row.map Capability.lower := by
  rw [ofLine]
  cases strict : g.names? (offer row).raw with
  | some ns => exact g.offers strict
  | none =>
    rw [Option.getD_none, plain_offer, List.map_map]
    rfl

theorem ofLine_condition (g : Grammar) {raw : List UInt8} {r : Response} {c : Condition}
    (read : Line.response? raw = some r) (status : r.message = .untagged c) : g.ofLine r = [] := by
  rw [ofLine, Framer.raw_of_response read, g.conditions read status, Option.getD_none,
    plain_condition status]

end Grammar

/-- Lines that offer capabilities, with remarks between them, and all names on offer. -/
inductive Listing : List (List UInt8) → List Capability → Prop
  | nil : Listing [] []
  | offer (row : List Capability) {lines : List (List UInt8)} {names : List Capability}
      (rest : Listing lines names) : Listing ((offer row).raw :: lines) (row ++ names)
  | remark {line : List UInt8} {lines : List (List UInt8)} {names : List Capability}
      (remark : Line.Remark line) (rest : Listing lines names) :
      Listing ((line ++ [Token.cr, Token.lf]) :: lines) names

/-- All lines are responses, and every grammar finds the names on offer on them. -/
theorem Listing.responses {lines : List (List UInt8)} {names : List Capability}
    (h : Listing lines names) : ∃ rs, lines.mapM Line.response? = some rs ∧
      ∀ g : Grammar, ((rs.filter Response.isUntagged).flatMap g.ofLine).map Ascii.lower =
        names.map Capability.lower := by
  induction h with
  | nil => exact ⟨[], rfl, fun _ => rfl⟩
  | offer row rest ih =>
    obtain ⟨rs, read, found⟩ := ih
    refine ⟨Capabilities.offer row :: rs, ?_, fun g => ?_⟩
    · rw [List.mapM_cons, response_offer, read]
      rfl
    · have untagged : (Capabilities.offer row).isUntagged = true := rfl
      rw [List.filter_cons, if_pos untagged, List.flatMap_cons, List.map_append, List.map_append,
        g.ofLine_offer, found]
  | @remark line lines names remark rest ih =>
    obtain ⟨rs, read, found⟩ := ih
    obtain ⟨m, made, other⟩ := remark.message
    have one : Line.response? (line ++ [Token.cr, Token.lf]) = some ⟨m, line ++ [Token.cr, Token.lf]⟩ := by
      rw [Line.response?, Framer.chomp_crlf, made]
      rfl
    refine ⟨⟨m, line ++ [Token.cr, Token.lf]⟩ :: rs, ?_, fun g => ?_⟩
    · rw [List.mapM_cons, one, read]
      rfl
    · cases m with
      | data tokens => exact absurd rfl (other tokens)
      | untagged c =>
        have untagged : Response.isUntagged ⟨.untagged c, line ++ [Token.cr, Token.lf]⟩ = true := rfl
        rw [List.filter_cons, if_pos untagged, List.flatMap_cons, g.ofLine_condition one rfl,
          List.nil_append, found]
      | completion tag c => exact found g
      | continuation text => exact found g

def OnOffer (names : List Capability) (disabled : List String) (name : String) : Prop :=
  (∃ n ∈ names, Ascii.sameName n.text name) ∧ ¬ ∃ d ∈ disabled, Ascii.sameName d name

theorem Grammar.has_ofResponses {g : Grammar} {rs : List Response} {names : List Capability}
    (found : ((rs.filter Response.isUntagged).flatMap g.ofLine).map Ascii.lower =
      names.map Capability.lower) (disabled : List String) (name : String) :
    (g.ofResponses rs disabled).has name ↔ OnOffer names disabled name := by
  rw [Grammar.ofResponses, has_sifted, found, OnOffer]
  simp only [List.contains_iff_mem, List.mem_filter, List.mem_map, Capability.lower, sameName_lower,
    beq_iff_eq, Bool.not_eq_true', ← Bool.not_eq_true]

/-- A name is found on the lines exactly if one of the names on offer is the same up to letter
case and none that is switched off is; and so it would be if any other grammar were used, be
it one that takes all offers, or none. -/
theorem has_listing {lines : List (List UInt8)} {names : List Capability} (h : Listing lines names) :
    ∃ rs, lines.mapM Line.response? = some rs ∧ ∀ disabled name,
      ((ofResponses rs disabled).has name ↔ OnOffer names disabled name) ∧
      ∀ g : Grammar, (g.ofResponses rs disabled).has name ↔ OnOffer names disabled name := by
  obtain ⟨rs, read, found⟩ := h.responses
  refine ⟨rs, read, fun disabled name => ⟨?_, fun g => Grammar.has_ofResponses (found g) disabled name⟩⟩
  rw [← Grammar.ofResponses_used]
  exact Grammar.has_ofResponses (found Grammar.used) disabled name

def taken : List Capability :=
  [⟨"IMAP4rev1", by decide, by decide, by decide⟩, ⟨"StartTLS", by decide, by decide, by decide⟩]

/-- Two names that the strict grammar does not take, for the first only begins with the word it
looks for. -/
def untaken : List Capability :=
  [⟨"imap4rev11", by decide, by decide, by decide⟩, ⟨"AUTH=", by decide, by decide, by decide⟩]

theorem has_mixed :
    let note := Utf8.encode "* OK [CAPABILITY IDLE] note \x7b3\x7d"
    let more := Utf8.encode "+ go on"
    let done := Utf8.encode "a1 no CAPABILITY IDLE"
    let crlf := [Token.cr, Token.lf]
    let lines := [note ++ crlf, (offer taken).raw, more ++ crlf, (offer untaken).raw, done ++ crlf]
    Listing lines (taken ++ untaken) ∧ strictLine? (offer taken).raw = some ["IMAP4rev1", "StartTLS"] ∧
      strictLine? (offer untaken).raw = none ∧ ∃ rs, lines.mapM Line.response? = some rs ∧
        (ofResponses rs ["STARTTLS"]).has "imap4REV1" ∧ (ofResponses rs ["STARTTLS"]).has "auth=" ∧
        ¬ (ofResponses rs ["STARTTLS"]).has "StartTLS" ∧ ¬ (ofResponses rs ["STARTTLS"]).has "IDLE" := by
  intro note more done crlf lines
  have noted : Line.Opens .ok (Utf8.encode "OK [CAPABILITY IDLE] note \x7b3\x7d")
      (Utf8.encode "[CAPABILITY IDLE] note \x7b3\x7d") :=
    Line.opens_iff.2 (by decide)
  have refused : Line.Opens .no (Utf8.encode "no CAPABILITY IDLE") (Utf8.encode "CAPABILITY IDLE") :=
    Line.opens_iff.2 (by decide)
  have tagged : Utf8.encode "a1" ≠ [] := by decide
  have completed : Line.Remark done := .completion tagged (List.all_eq_true.1 (by decide)) refused
  have listing : Listing lines (taken ++ untaken) :=
    .remark (.untagged noted) (.offer taken (.remark (.continuation (Utf8.encode " go on"))
      (.offer untaken (.remark completed .nil))))
  obtain ⟨rs, read, found⟩ := has_listing listing
  have names (name : String) := (found ["STARTTLS"] name).1
  refine ⟨listing, by decide +kernel, by decide +kernel, rs, read, (names _).2 ?_, (names _).2 ?_,
    mt (names _).1 ?_, mt (names _).1 ?_⟩ <;> unfold OnOffer <;> decide

end Capabilities

end ImapSession
