import ImapSession.Session.Opening
import ImapSession.Settings

/-!
The command line: open a session, show what the server offers, log out. Host,
user and password may also come from the environment. Nothing is opened before
the arguments and the environment have been found to be complete.
-/
namespace ImapSession.CommandLine

inductive Flag where
  | host | port | user | disable | timeout | insecure
  deriving DecidableEq, Repr

inductive Stop where
  | usage
  | help
  deriving DecidableEq, Repr

namespace Flag

def ofName? : String → Option Flag
  | "host" => some .host
  | "port" => some .port
  | "user" => some .user
  | "disable" => some .disable
  | "timeout" => some .timeout
  | "insecure" => some .insecure
  | _ => none

def ofLetter? : Char → Option Flag
  | 'p' => some .port
  | 'u' => some .user
  | _ => none

def takesValue (f : Flag) : Bool := f != .insecure

def isRepeatable (f : Flag) : Bool := f == .disable

end Flag

inductive Argument where
  | long (name : String) (value : Option String)
  | short (letter : Char) (tail : List Char)
  | separator
  | plain
  deriving DecidableEq, Repr

/-- Two dashes open a name, with a value behind the first equals sign; one dash
opens letters. A dash by itself is a plain value. -/
def Argument.of (text : String) : Argument :=
  match text.toList with
  | ['-', '-'] => .separator
  | '-' :: '-' :: r =>
    let name := String.ofList (r.takeWhile (· ≠ '='))
    match r.dropWhile (· ≠ '=') with
    | [] => .long name none
    | _ :: value => .long name (some (String.ofList value))
  | '-' :: c :: r => .short c r
  | _ => .plain

def digits? (cs : List Char) : Option Nat :=
  if cs ≠ [] ∧ cs.all Char.isDigit then
    some (cs.foldl (fun n c => 10 * n + (c.toNat - 0x30)) 0)
  else none

def integer? (text : String) : Option Int :=
  match text.toList with
  | '-' :: r => (digits? r).map fun n => -(n : Int)
  | '+' :: r => (digits? r).map Int.ofNat
  | r => (digits? r).map Int.ofNat

def port? (text : String) : Option UInt16 :=
  match integer? text with
  | none => none
  | some n => if 0 ≤ n ∧ n < 65536 then some (UInt16.ofNat n.toNat) else none

/-- A number of seconds: sixty-four bits, a plus allowed but no minus. -/
def seconds? (text : String) : Option Nat :=
  match text.toList with
  | '-' :: _ => none
  | _ =>
    match integer? text with
    | none => none
    | some n => if n ≤ 0xffffffffffffffff then some n.toNat else none

def Flag.admits (f : Flag) (value : String) : Bool :=
  match f with
  | .port => (port? value).isSome
  | .timeout => (seconds? value).isSome
  | _ => true

/-- Take up one more flag behind those already given, the latest first. -/
def taken (given : List (Flag × String)) (f : Flag) (value : String) :
    Except Stop (List (Flag × String)) :=
  if (!f.isRepeatable && given.any fun g => g.1 == f) || !f.admits value then .error .usage
  else .ok ((f, value) :: given)

/-- The flags behind those already given, the latest first, each with its value.
The first argument that cannot be taken up decides how the reading stops. -/
def flagsOnto (given : List (Flag × String)) : List String → Except Stop (List (Flag × String))
  | [] => .ok given
  | text :: rest =>
    match Argument.of text with
    | .plain => .error .usage
    | .separator => if rest = [] then .ok given else .error .usage
    | .long name value =>
      match Flag.ofName? name, value with
      | none, value => .error (if name = "help" ∧ value = none then .help else .usage)
      | some f, some v =>
        if f.takesValue then do flagsOnto (← taken given f v) rest else .error .usage
      | some f, none =>
        if f.takesValue then
          match rest with
          | [] => .error .usage
          | v :: rest =>
            if Argument.of v = .plain then do flagsOnto (← taken given f v) rest
            else .error .usage
        else do flagsOnto (← taken given f "") rest
    | .short letter tail =>
      match Flag.ofLetter? letter, tail with
      | none, _ => .error (if letter = 'h' then .help else .usage)
      | some f, [] =>
        match rest with
        | [] => .error .usage
        | v :: rest =>
          if Argument.of v = .plain then do flagsOnto (← taken given f v) rest
          else .error .usage
      | some f, c :: r => do
        flagsOnto (← taken given f (String.ofList (if c = '=' then r else c :: r))) rest

def flags (arguments : List String) : Except Stop (List (Flag × String)) :=
  (flagsOnto [] arguments).map List.reverse

structure Options where
  host : Option String
  port : UInt16
  user : Option String
  disabled : List String
  timeout : Nat
  insecure : Bool
  deriving DecidableEq, Repr

def defaultPort : UInt16 := 143
def defaultTimeout : Nat := 30

def valuesOf (given : List (Flag × String)) (f : Flag) : List String :=
  (given.filter fun g => g.1 == f).map (·.2)

/-- A single value, read in the way that fits it, or the default. -/
def single (given : List (Flag × String)) (f : Flag) (read : String → Option α) (default : α) :
    α :=
  ((valuesOf given f).head?.bind read).getD default

def Options.of (arguments : List String) : Except Stop Options :=
  (flags arguments).map fun given => {
    host := (valuesOf given .host).head?
    port := single given .port port? defaultPort
    user := (valuesOf given .user).head?
    disabled := valuesOf given .disable
    timeout := single given .timeout seconds? defaultTimeout
    insecure := !(valuesOf given .insecure).isEmpty }

inductive Outcome where
  | stopped (stop : Stop)
  | missing (name : String)
  | failed (failure : Failure)
  | finished
  deriving DecidableEq, Repr

def Outcome.code : Outcome → Nat
  | .stopped .usage => 2
  | .stopped .help => 0
  | .missing _ => 1
  | .failed _ => 1
  | .finished => 0

/-- What a run leaves behind: how it ended, the lines it printed, and the record
of what it did. -/
structure Report where
  outcome : Outcome
  lines : List String
  log : List Event
  deriving DecidableEq, Repr

/-- What the owner of the account was told, in order. -/
def Report.healths (r : Report) : List Health := World.reports r.log 0

/-- Open a session, show it, and log out. -/
def converse (s : Scene) : Report :=
  match Op.connect s with
  | .error e s => ⟨.failed e, [], s.world.log⟩
  | .ok () s =>
    let opened := [s.session.phase.shown, "capabilities: " ++ s.session.capabilities.shown]
    match Op.execute "LOGOUT" false s with
    | .error e s => ⟨.failed e, opened, s.world.log⟩
    | .ok rs s =>
      match Op.close s with
      | .ok () t => ⟨.finished, opened ++ rs.map Response.shown, t.world.log⟩
      | .error e t => ⟨.failed e, opened ++ rs.map Response.shown, t.world.log⟩

def settings (o : Options) (host user password : String) : Settings :=
  let s := (Settings.base host o.port 0).credentials user password
  { o.disabled.foldl Settings.disable s with readTimeout := some (1000 * o.timeout) }

/-- A value from the arguments, or else from the environment. -/
def orVariable (environment : String → Option String) (name : String) :
    Option String → Except Outcome String
  | some v => .ok v
  | none =>
    match environment name with
    | some v => .ok v
    | none => .error (.missing name)

def prepare (arguments : List String) (environment : String → Option String) :
    Except Outcome Settings := do
  match Options.of arguments with
  | .error s => .error (.stopped s)
  | .ok o =>
    let host ← orVariable environment "HOST" o.host
    let user ← orVariable environment "MAILUSER" o.user
    let password ← orVariable environment "PASSWORD" none
    return settings o host user password

/-- A whole run, on a network that gives the links for a host and a port. -/
def run (arguments : List String) (environment : String → Option String)
    (network : String → UInt16 → Supply) (nonce : String) : Report :=
  match prepare arguments environment with
  | .error outcome => ⟨outcome, [], []⟩
  | .ok s =>
    let w := s.world nonce (network s.domain s.port)
    converse ⟨.bound w 0, w⟩

end ImapSession.CommandLine
