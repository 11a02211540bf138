import ImapSession.Proofs.Drafting
import ImapSession.Proofs.Packing
import ImapSession.Proofs.Protocol
import ImapSession.Proofs.Steady

/-!
What a far end hears of a line. It answers line ends, whatever stands in front of them, so
that a link does the same with any two lines that are one line each. Such are all commands
that log in: user name and password are refused if they do not fit on a line.
-/
namespace ImapSession

/-- Bytes in front of a line do not change how it is answered. -/
theorem Peer.hear_skip (p : Peer) {a b : List UInt8} (quiet : ∀ x ∈ a, x ≠ Stream.lf)
    (some : b ≠ []) : p.hear (a ++ b) = p.hear b := by
  induction a with
  | nil => rfl
  | cons x a ih =>
    obtain ⟨y, r, rfl⟩ := List.exists_cons_of_ne_nil some
    have skipped := ih fun z hz => quiet z (List.mem_cons_of_mem _ hz)
    cases hp : p.awaited with
    | some reply => simp only [List.cons_append, Peer.hear, hp]
    | none =>
      rw [List.cons_append, Peer.hear, hp]
      simp only [if_neg (quiet x (List.mem_cons_self ..)), skipped]

/-- The digits of a tag are no line ends. -/
theorem quiet_numeral (n : Nat) : ∀ x ∈ Draft.numeral n, x ≠ Stream.lf := by
  rintro x hx rfl
  have digit := Draft.isDigit_of_mem_numeral hx
  exact absurd digit (by decide)

/-- A link does the same with a command whatever its tag. -/
theorem Link.write_tagged (l : Link) (t t' : UInt64) (command : String) :
    l.write (tagged t' command) = l.write (tagged t command) := by
  have heard : ∀ t : UInt64, l.peer.hear (Link.wire (tagged t command)) =
      l.peer.hear (Link.wire (" " ++ command)) := by
    intro t
    have spelt : Link.wire (tagged t command) =
        Draft.numeral t.toNat ++ Link.wire (" " ++ command) := by
      simp [Link.wire, tagged, Draft.numeral]
    rw [spelt]
    exact l.peer.hear_skip (quiet_numeral _) (by simp [Link.wire])
  simp only [Link.write, heard t, heard t']

/-- The text fits on one line. -/
def Flat (s : String) : Prop := ∀ c ∈ s.toList, c ≠ '\n' ∧ c ≠ '\r'

@[simp] theorem lineEnd_eq_none {s : String} : Quoted.lineEnd? s = none ↔ Flat s := by
  simp [Quoted.lineEnd?, Flat, List.find?_eq_none]

theorem flat_append {s t : String} : Flat (s ++ t) ↔ Flat s ∧ Flat t := by
  simp only [Flat, String.toList_append, List.mem_append, or_imp, forall_and]
  tauto

/-- Quotes and backslashes make no line of their own. -/
theorem flat_quoted {s : String} (h : Flat s) : Flat (Quoted.encode s) := by
  intro c hc
  simp only [Quoted.encode, String.toList_ofList, List.cons_append, List.mem_cons, List.mem_append,
    List.not_mem_nil, or_false, Quoted.escape, List.mem_flatMap] at hc
  rcases hc with rfl | ⟨d, hd, hc⟩ | rfl
  · decide
  · split at hc
    · simp only [List.mem_cons, List.not_mem_nil, or_false] at hc
      rcases hc with rfl | rfl
      · decide
      · exact h c hd
    · obtain rfl := List.mem_singleton.1 hc
      exact h c hd
  · decide

theorem flat_base64 (bytes : List UInt8) : Flat (Base64.encode bytes) := by
  intro c hc
  rw [Base64.encode, String.toList_ofList] at hc
  have visible := Base64.not_blank_symbols bytes c hc
  constructor
  · rintro rfl
    exact absurd visible (by decide)
  · rintro rfl
    exact absurd visible (by decide)

theorem flat_numeral (n : Nat) : Flat (toString n) := by
  intro c hc
  have digits : (toString n).toList = Nat.toDigits 10 n := Nat.toList_repr
  rw [digits] at hc
  have digit := Draft.digit_of_mem hc
  constructor
  · rintro rfl
    exact absurd digit (by decide)
  · rintro rfl
    exact absurd digit (by decide)

theorem flat_tagged {command : String} (h : Flat command) (t : UInt64) :
    Flat (tagged t command) := by
  have space : Flat " " := by simp [Flat]
  exact flat_append.2 ⟨flat_append.2 ⟨flat_numeral _, space⟩, h⟩

/-- The bytes of a text that fits on one line are no line ends either. -/
theorem Flat.bytes {s : String} (h : Flat s) :
    ∀ b ∈ Utf8.encode s, b ≠ Token.lf ∧ b ≠ Token.cr := by
  intro b hb
  obtain ⟨c, hc, member⟩ := List.mem_flatMap.1 hb
  obtain ⟨line, back⟩ := h c hc
  constructor
  · rintro rfl
    have same := Utf8.toNat_of_mem_encodeChar member (by decide)
    exact line (Char.toNat_inj.1 same)
  · rintro rfl
    have same := Utf8.toNat_of_mem_encodeChar member (by decide)
    exact back (Char.toNat_inj.1 same)

/-- A link does the same with any two texts that fit on one line. -/
theorem Link.write_flat (l : Link) {s t : String} (hs : Flat s) (ht : Flat t) :
    l.write t = l.write s := by
  have heard : ∀ s : String, Flat s → l.peer.hear (Link.wire s) = l.peer.hear [0x0d, 0x0a] := by
    intro s h
    exact l.peer.hear_skip (fun b hb => (h.bytes b hb).1) (by simp)
  simp only [Link.write, heard s hs, heard t ht]

namespace Op

/-- The login command is made of a user name and a password that fit on one line. -/
theorem phrase_ok {username password command : String} :
    phrase username password = .ok command ↔ Flat username ∧ Flat password ∧
      command = "LOGIN " ++ username ++ " " ++ Quoted.encode password := by
  rw [← lineEnd_eq_none, ← lineEnd_eq_none]
  cases hu : Quoted.lineEnd? username <;> cases hp : Quoted.lineEnd? password <;>
    simp [phrase, oneLine, hu, hp, bind, Except.bind, pure, Except.pure, eq_comm]

theorem flat_phrase {username password command : String}
    (h : phrase username password = .ok command) : Flat command := by
  obtain ⟨hu, hp, rfl⟩ := phrase_ok.1 h
  have word : Flat "LOGIN " ∧ Flat " " := by
    constructor <;> simp [Flat]
  exact flat_append.2 ⟨flat_append.2 ⟨flat_append.2 ⟨word.1, hu⟩, word.2⟩, flat_quoted hp⟩

/-- A refusal names the first line end there is, and that of the user name if both have one. -/
theorem phrase_error {username password : String} {e : Failure} :
    phrase username password = .error e ↔ ∃ c, e = .character c ∧
      (Quoted.lineEnd? username = some c ∨
        Flat username ∧ Quoted.lineEnd? password = some c) := by
  rw [← lineEnd_eq_none]
  cases hu : Quoted.lineEnd? username <;> cases hp : Quoted.lineEnd? password <;>
    simp [phrase, oneLine, hu, hp, bind, Except.bind, pure, Except.pure, eq_comm]

/-- A new login command is that of the account, and is kept; if there is none, nothing changes. -/
theorem newPhrase_eq {s : Scene} {k : Nat} (bound : s.session.account = some k) : newPhrase s =
    match (s.world.accounts k).phrase with
    | .ok q => .ok q { s with session := { s.session with loginPhrase := some q } }
    | .error e => .error e s := by
  have account : Op.bound s = .ok (s.world.accounts k) s := by rw [bound_eq, bound]
  rw [newPhrase, bind_ok account, Account.phrase]
  cases (s.world.accounts k).credentials with
  | error e => rfl
  | ok given =>
    cases hp : phrase given.1 given.2 with
    | error e => simp only [settle, hp, bind, EStateM.bind, Except.bind]
    | ok q =>
      simp only [settle, hp, bind, EStateM.bind, Except.bind]
      rfl

end Op

theorem Account.flat_phrase {a : Account} {q : String} (h : a.phrase = .ok q) : Flat q := by
  unfold Account.phrase at h
  cases hc : a.credentials with
  | error e =>
    rw [hc] at h
    cases h
  | ok given =>
    rw [hc] at h
    exact Op.flat_phrase h

end ImapSession
