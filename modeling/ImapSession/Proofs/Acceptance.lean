import ImapSession.Proofs.Listing
import ImapSession.Proofs.Packing
import ImapSession.Proofs.Whole
import ImapSession.Session.Opening

/-!
The digest login against a server that goes by RFC 2831. The server computes its digests
from the octets of what it was sent and of the password it has stored, on its own terms;
the client takes up every challenge that lists a realm and a nonce, its answer tells the
server exactly what there is to tell, the server finds the digest that it expects, and the
client finds the one that it expects in return.
-/
namespace ImapSession

open ImapSession.Directives (Entry Written Gap find? ofText listed isKeyChar)

namespace Directives

def Gap.none : Gap := ⟨[], by simp⟩

structure IsKey (key : String) : Prop where
  named : key.toList ≠ []
  spelled : key.toList.all isKeyChar
  lower : Ascii.lower key = key

instance (key : String) : Decidable (IsKey key) :=
  decidable_of_iff (key.toList ≠ [] ∧ key.toList.all isKeyChar ∧ Ascii.lower key = key)
    ⟨fun h => ⟨h.1, h.2.1, h.2.2⟩, fun h => ⟨h.named, h.spelled, h.lower⟩⟩

def Entry.tight (key : String) (value : Written) (h : IsKey key) : Entry :=
  ⟨key.toList, value, .none, .none, .none, .none, h.named, List.all_eq_true.1 h.spelled⟩

section Tight

variable {key : String} (value : Written) (h : IsKey key)

@[simp] theorem Entry.chars_tight :
    (Entry.tight key value h).chars = key.toList ++ '=' :: value.chars := by
  simp [Entry.chars, Entry.tight, Gap.none]

@[simp] theorem Entry.name_tight : (Entry.tight key value h).name = key := h.lower

@[simp] theorem Entry.said_tight : (Entry.tight key value h).said = (key, value.text) := by
  rw [Entry.said, Entry.name_tight]
  rfl

end Tight

end Directives

/-! What a server computes, as RFC 2831 has it and with its names for the functions. -/
namespace Verifier

def colon : UInt8 := 0x3a

def h (octets : List UInt8) : List UInt8 := Md5.digest octets

def kd (key octets : List UInt8) : List UInt8 := h (key ++ colon :: octets)

def hex (octets : List UInt8) : List UInt8 := Utf8.encode (Md5.hex octets)

structure Details where
  username : String
  realm : String
  nonce : String
  count : String
  clientNonce : String
  quality : String
  uri : String
  response : String
  deriving DecidableEq, Repr

def Details.ofText? (text : String) : Option Details := do
  let ds := ofText text
  let username ← find? ds "username"
  let realm ← find? ds "realm"
  let nonce ← find? ds "nonce"
  let count ← find? ds "nc"
  let clientNonce ← find? ds "cnonce"
  let quality ← find? ds "qop"
  let uri ← find? ds "digest-uri"
  let response ← find? ds "response"
  return { username, realm, nonce, count, clientNonce, quality, uri, response }

namespace Details

/-- A1: who it is, with which password, in which session. -/
def a1 (c : Details) (password : String) : List UInt8 :=
  h (Utf8.encode c.username ++ colon :: (Utf8.encode c.realm ++ colon :: Utf8.encode password)) ++
    colon :: (Utf8.encode c.nonce ++ colon :: Utf8.encode c.clientNonce)

def value (c : Details) (password : String) (a2 : List UInt8) : List UInt8 :=
  hex (kd (hex (h (c.a1 password)))
    (Utf8.encode c.nonce ++ colon :: (Utf8.encode c.count ++ colon ::
      (Utf8.encode c.clientNonce ++ colon :: (Utf8.encode c.quality ++ colon :: hex (h a2))))))

def expected (c : Details) (password : String) : List UInt8 :=
  c.value password (Utf8.encode "AUTHENTICATE" ++ colon :: Utf8.encode c.uri)

/-- The message with which the server proves itself. -/
def confirmation (c : Details) (password : String) : List UInt8 :=
  Utf8.encode "rspauth=" ++ c.value password (colon :: Utf8.encode c.uri)

end Details

end Verifier

/-- A challenge: directives with distinct keys, a realm and a nonce among them, and no other
algorithm than the one there is. -/
structure Challenge where
  realm : String
  nonce : String
  entries : List Entry
  distinct : (entries.map Entry.name).Nodup
  realmListed : ("realm", realm) ∈ entries.map Entry.said
  nonceListed : ("nonce", nonce) ∈ entries.map Entry.said
  algorithm : ∀ name, ("algorithm", name) ∈ entries.map Entry.said →
    Ascii.sameName name Exchange.algorithm

def Challenge.text (c : Challenge) : String := String.ofList (listed c.entries)

theorem Challenge.directives (c : Challenge) : ofText c.text = c.entries.map Entry.said := by
  simp [ofText, text]

def plainEntries (realm nonce : String) (named : Bool) : List Entry :=
  .tight "realm" (.quoted realm) (by decide) :: .tight "nonce" (.quoted nonce) (by decide) ::
    if named then [.tight "algorithm" (.plain "md5-sess" (by decide)) (by decide)] else []

def Challenge.plain (realm nonce : String) (named : Bool) : Challenge where
  realm := realm
  nonce := nonce
  entries := plainEntries realm nonce named
  distinct := by cases named <;> simp [plainEntries]
  realmListed := by simp [plainEntries]
  nonceListed := by simp [plainEntries]
  algorithm := by
    intro name h
    cases named with
    | false => simp [plainEntries] at h
    | true =>
      have same : name = "md5-sess" := by simpa [plainEntries] using h
      rw [same]
      decide

theorem Challenge.text_plain (realm nonce : String) (named : Bool) :
    (Challenge.plain realm nonce named).text = "realm=" ++ Quoted.encode realm ++ ",nonce=" ++
      Quoted.encode nonce ++ if named then ",algorithm=md5-sess" else "" := by
  rw [← String.toList_inj]
  cases named <;>
    simp [Challenge.text, Challenge.plain, plainEntries, Written.chars, Written.plain]

/-- The line that asks for more with some octets in base64, as it is read. -/
def asking (octets : List UInt8) : Response where
  message := .continuation (Base64.encode octets)
  raw := Utf8.encode ("+ " ++ Base64.encode octets) ++ [Token.cr, Token.lf]

/-- Base64 holds no line end and no brace. -/
theorem clean_base64 {octets : List UInt8} {b : UInt8} (h : b ∈ Utf8.encode (Base64.encode octets)) :
    b ≠ Token.lf ∧ b ≠ Token.closeCount := by
  have all : ∀ v < 64, Base64.symbolByte v ≠ Token.lf ∧ Base64.symbolByte v ≠ Token.closeCount := by
    decide +kernel
  rcases Base64.mem_encode h with rfl | ⟨v, hv, rfl⟩
  · decide
  · exact all v hv

theorem encode_asking (octets : List UInt8) : Utf8.encode ("+ " ++ Base64.encode octets) =
    Line.plus :: Line.space :: Utf8.encode (Base64.encode octets) := by
  rw [Utf8.encode_append]
  rfl

@[simp] theorem response_asking (octets : List UInt8) :
    Line.response? (asking octets).raw = some (asking octets) := by
  have message : Line.messageOf? (Utf8.encode ("+ " ++ Base64.encode octets)) =
      some (.continuation (Base64.encode octets)) := by
    rw [encode_asking]
    simp [Line.messageOf?, Line.heading?, Line.payload]
  rw [Line.response?, asking, Framer.chomp_crlf, message]
  rfl

theorem whole_asking (octets : List UInt8) : (asking octets).Whole := by
  refine Framer.whole_of_line ?_ ?_ (response_asking octets)
  · refine ⟨Utf8.encode ("+ " ++ Base64.encode octets) ++ [Token.cr], by simp [asking]; rfl, ?_⟩
    rw [encode_asking]
    intro h
    simp only [List.cons_append, List.mem_cons, List.mem_append, List.not_mem_nil, or_false] at h
    rcases h with h | h | h | h
    · exact absurd h (by decide)
    · exact absurd h (by decide)
    · exact (clean_base64 h).1 rfl
    · exact absurd h (by decide)
  · refine Framer.announced_none ?_
    rintro ⟨n, before, digits, h, -⟩
    have brace : Token.closeCount ∈ Utf8.encode ("+ " ++ Base64.encode octets) := by rw [h]; simp
    rw [encode_asking] at brace
    simp only [List.mem_cons] at brace
    rcases brace with h | h | h
    · exact absurd h (by decide)
    · exact absurd h (by decide)
    · exact (clean_base64 h).2 rfl

@[simp] theorem payload_asking (before : List Response) (text : String) :
    Op.payload (before ++ [asking (Utf8.encode text)]) = .ok text := by
  have continued : (asking (Utf8.encode text)).isContinuation = true := rfl
  have value : (asking (Utf8.encode text)).valueAt 0 = Exchange.encode text := rfl
  rw [Op.payload, List.getLast?_concat]
  simp only [continued, if_true, value, Exchange.decode_encode]
  rfl

namespace Exchange

/-- Every challenge is taken up as it is. -/
theorem ofChallenge_text (c : Challenge) (username password host clientNonce : String) :
    ofChallenge username password host c.text clientNonce =
      .ok ⟨username, password, c.realm, c.nonce, clientNonce, "imap/" ++ host⟩ := by
  have distinct : ((c.entries.map Entry.said).map Prod.fst).Nodup := by
    have keys : (c.entries.map Entry.said).map Prod.fst = c.entries.map Entry.name := by
      rw [List.map_map]
      rfl
    rw [keys]
    exact c.distinct
  have nonce := Directives.find_of_mem distinct c.nonceListed
  have realm := Directives.find_of_mem distinct c.realmListed
  simp only [ofChallenge, c.directives, nonce, realm]
  cases named : find? (c.entries.map Entry.said) "algorithm" with
  | none => rfl
  | some name =>
    have known := c.algorithm name (Directives.mem_of_find named)
    simp only [known, if_true]
    rfl

variable (x : Exchange)

theorem spelled_hex (bytes : List UInt8) : (Md5.hex bytes).toList.all isKeyChar := by
  have digits : ∀ n < 16, isKeyChar (Nat.digitChar n) = true := by decide
  refine List.all_eq_true.2 fun c hc => ?_
  simp only [Md5.hex, String.toList_ofList, List.mem_flatMap, List.mem_cons, List.not_mem_nil,
    or_false] at hc
  obtain ⟨b, -, rfl | rfl⟩ := hc
  · have := b.toNat_lt
    exact digits _ (by omega)
  · exact digits _ (by omega)

theorem spelled_proof : x.clientProof.toList.all isKeyChar := spelled_hex _

def answering : List Entry :=
  [.tight "charset" (.plain "utf-8" (by decide)) (by decide),
    .tight "username" (.quoted x.username) (by decide),
    .tight "realm" (.quoted x.realm) (by decide),
    .tight "nonce" (.quoted x.nonce) (by decide),
    .tight "nc" (.plain "00000001" (by decide)) (by decide),
    .tight "cnonce" (.quoted x.clientNonce) (by decide),
    .tight "digest-uri" (.quoted x.uri) (by decide),
    .tight "response" (.plain x.clientProof x.spelled_proof) (by decide),
    .tight "qop" (.plain "auth" (by decide)) (by decide)]

theorem toList_answer : x.answer.toList = listed x.answering := by
  unfold answer
  simp [answering, Written.chars, Written.plain, charset, nonceCount, quality]

/-- What the answer says, and that it says nothing else. -/
theorem directives_answer : ofText x.answer = [("charset", "utf-8"), ("username", x.username),
    ("realm", x.realm), ("nonce", x.nonce), ("nc", "00000001"), ("cnonce", x.clientNonce),
    ("digest-uri", x.uri), ("response", x.clientProof), ("qop", "auth")] := by
  rw [ofText, toList_answer, Directives.scan_listed]
  simp [answering]

def details : Verifier.Details where
  username := x.username
  realm := x.realm
  nonce := x.nonce
  count := "00000001"
  clientNonce := x.clientNonce
  quality := "auth"
  uri := x.uri
  response := x.clientProof

@[simp] theorem details_answer : Verifier.Details.ofText? x.answer = some x.details := by
  simp [Verifier.Details.ofText?, directives_answer, find?, List.lookup_cons, details]

@[simp] theorem encode_colon : Utf8.encode ":" = [Verifier.colon] := rfl

/-- Server and client compute the same, if they start from the same password. -/
theorem value_details (action : String) : x.details.value x.password (Utf8.encode action) =
    Utf8.encode (x.proof action) := by
  simp only [Verifier.Details.value, Verifier.Details.a1, Verifier.hex, Verifier.kd, Verifier.h,
    details, proof, hash, nonceCount, quality, Utf8.encode_append, encode_colon, List.append_assoc,
    List.cons_append, List.nil_append]

theorem expected_details : x.details.expected x.password = Utf8.encode x.clientProof := by
  have computed := x.value_details ("AUTHENTICATE:" ++ x.uri)
  rw [Utf8.encode_append] at computed
  exact computed

theorem confirmation_details :
    x.details.confirmation x.password = Utf8.encode ("rspauth=" ++ x.serverProof) := by
  have computed : x.details.value x.password (Verifier.colon :: Utf8.encode x.details.uri) =
      Utf8.encode x.serverProof := by
    have same := x.value_details (":" ++ x.uri)
    rw [Utf8.encode_append, encode_colon, List.singleton_append] at same
    exact same
  rw [Verifier.Details.confirmation, Utf8.encode_append, computed]

/-- The client finds what it expects in return. -/
theorem verify_confirmation : x.verify ("rspauth=" ++ x.serverProof) = .ok () := by
  have entry : ("rspauth=" ++ x.serverProof).toList =
      listed [.tight "rspauth" (.plain x.serverProof (spelled_hex _)) (by decide)] := by
    simp [Written.chars, Written.plain]
  have given : find? (ofText ("rspauth=" ++ x.serverProof)) "rspauth" = some x.serverProof := by
    rw [ofText, entry, Directives.scan_listed]
    simp [find?]
    rfl
  rw [verify, given]
  simp [Ascii.sameName]

end Exchange

/-- The login succeeds with every server that has the same password stored, whatever the
user name, the password, the realm, both nonces and the host are made of. The challenge is
read as one response and taken up; the answer, out of its base64, says these nine things;
the digest in it is the one that the server computes from what it read and the password; and
the server's message, which is again read as one response, passes for its proof. -/
theorem digest_accepted (a : Account) (username password : String) (c : Challenge)
    (before later : List Response) :
    ∃ x text response, ∃ d : Verifier.Details,
      (asking (Utf8.encode c.text)).Whole ∧
      Op.challenged a username password (before ++ [asking (Utf8.encode c.text)]) = .ok x ∧
      Exchange.decode (Exchange.encode x.answer) = .ok text ∧
      ofText text = [("charset", "utf-8"), ("username", username), ("realm", c.realm),
        ("nonce", c.nonce), ("nc", "00000001"), ("cnonce", a.nonce),
        ("digest-uri", "imap/" ++ a.host), ("response", response), ("qop", "auth")] ∧
      Verifier.Details.ofText? text = some d ∧
      d = ⟨username, c.realm, c.nonce, "00000001", a.nonce, "auth", "imap/" ++ a.host, response⟩ ∧
      Utf8.encode response = d.expected password ∧
      (asking (d.confirmation password)).Whole ∧
      Op.verified x (later ++ [asking (d.confirmation password)]) = .ok () := by
  let x : Exchange := ⟨username, password, c.realm, c.nonce, a.nonce, "imap/" ++ a.host⟩
  have taken : Op.challenged a username password (before ++ [asking (Utf8.encode c.text)]) = .ok x := by
    rw [Op.challenged, payload_asking]
    simp only [bind, Except.bind, Exchange.ofChallenge_text]
    rfl
  have proven : Op.verified x (later ++ [asking (x.details.confirmation password)]) = .ok () := by
    have confirmation := x.confirmation_details
    rw [Op.verified, confirmation, payload_asking]
    simp only [bind, Except.bind, x.verify_confirmation]
    rfl
  exact ⟨x, x.answer, x.clientProof, x.details, whole_asking _, taken, Exchange.decode_encode _,
    x.directives_answer, x.details_answer, rfl, x.expected_details.symm, whole_asking _, proven⟩

end ImapSession
