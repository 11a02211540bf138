import ImapSession.Server

/-!
Settings for a server that is reached over a network: where it is, who logs in,
and how the client should behave. They make an account and links.
-/
namespace ImapSession

structure Settings where
  domain : String
  port : UInt16
  username : Option String
  password : Option String
  disabled : List String
  /-- Milliseconds that a read waits; without a limit it waits as long as it takes. -/
  readTimeout : Option Nat
  /-- What reports are headed with; without it nobody is told. -/
  heading : Option String
  counter : Nat
  deriving DecidableEq, Repr

namespace Settings

def base (domain : String) (port : UInt16) (counter : Nat) : Settings :=
  ⟨domain, port, none, none, [], none, none, counter⟩

def credentials (s : Settings) (username password : String) : Settings :=
  { s with username := some username, password := some password }

def disable (s : Settings) (name : String) : Settings :=
  if s.disabled.contains name then s else { s with disabled := s.disabled ++ [name] }

def sortedDisabled (s : Settings) : List String :=
  s.disabled.mergeSort fun a b => !decide (b < a)

def told (s : Settings) (h : Health) : Option String := s.heading.map (· ++ h.shown)

/-- The account of these settings, with the nonce its logins will use. -/
def account (s : Settings) (nonce : String) : Account :=
  ⟨s.username, s.password, s.domain, s.disabled, nonce, s.counter⟩

/-- A read that waits for no time at all cannot be asked for. -/
def noTimeout : Fault := ⟨.invalidInput, "cannot set a 0 duration timeout"⟩

/-- A link as it is opened under these settings: the limit on reads is set once
the other end has answered. -/
def apply (s : Settings) (l : Link) : Link :=
  if l.openFault.isNone ∧ s.readTimeout = some 0 then { l with openFault := some noTimeout }
  else l

def applyAll (s : Settings) (network : Supply) : Supply :=
  ⟨network.links.map s.apply, s.apply network.spare⟩

/-- A world with these settings as its first account. -/
def world (s : Settings) (nonce : String) (network : Supply) : World where
  accounts := fun _ => s.account nonce
  supplies := fun _ => s.applyAll network
  tags := World.noTags
  log := []

/-- A count of milliseconds in words: whole seconds and a decimal fraction, or
milliseconds below one second. -/
def duration (ms : Nat) : String :=
  if ms = 0 then "0ns"
  else if ms < 1000 then toString ms ++ "ms"
  else
    let fraction := ((toString (1000 + ms % 1000)).toList.drop 1).reverse.dropWhile (· = '0')
    let decimals := if fraction = [] then "" else "." ++ String.ofList fraction.reverse
    toString (ms / 1000) ++ decimals ++ "s"

def durationShown : Option Nat → String
  | none => "None"
  | some ms => "Some(" ++ duration ms ++ ")"

/-- The settings as messages show them; the password is left out. -/
def shown (s : Settings) : String :=
  "ImapConfig \x7b domain: " ++ Inspect.ofText s.domain ++ ", port: " ++ toString s.port.toNat ++
    ", username: " ++ Inspect.ofText? s.username ++ ", disabled_capabilities: " ++
    Inspect.ofTexts s.sortedDisabled ++ ", read_timeout: " ++ durationShown s.readTimeout ++
    ", tls_kind: Rust \x7d"

def linkShown (s : Settings) (l : Link) : String :=
  "TcpTransport \x7b domain: " ++ Inspect.ofText s.domain ++ ", port: " ++
    toString s.port.toNat ++ ", open: " ++ toString l.isOpen ++ " \x7d"

end Settings

end ImapSession
