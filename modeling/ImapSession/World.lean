import ImapSession.Failure
import ImapSession.Link

/-!
What sessions share: the accounts they may be bound to, the links each account
has still to give out, the counters from which commands draw their tags, and a
record of everything that was done, in order. Accounts, links and counters are
total functions of a number, so a session can be bound to any account.
-/
namespace ImapSession

def put (f : Nat → α) (i : Nat) (a : α) : Nat → α := fun j => if j = i then a else f j

@[simp] theorem put_same (f : Nat → α) (i : Nat) (a : α) : put f i a i = a := by simp [put]

@[simp] theorem put_other (f : Nat → α) (i j : Nat) (a : α) (h : j ≠ i) :
    put f i a j = f j := by simp [put, h]

/-- Who logs in, to which host, and what the client should not make use of. -/
structure Account where
  username : Option String
  password : Option String
  host : String
  disabled : List String
  nonce : String
  counter : Nat
  deriving DecidableEq, Repr

/-- User name and password, which have to be there both. -/
def Account.credentials (a : Account) : Except Failure (String × String) :=
  match a.username, a.password with
  | some username, some password => .ok (username, password)
  | _, _ => .error .noCredentials

/-- The links an account gives out: those in the list first, then always the spare. -/
structure Supply where
  links : List Link
  spare : Link
  deriving DecidableEq, Repr

inductive Act where
  | dial
  | establish
  | close
  | write (line : String) (shown : String)
  | secure
  | report (health : Health)
  | nonce
  deriving DecidableEq, Repr

structure Event where
  account : Nat
  act : Act
  deriving DecidableEq, Repr

/-- Tag counters: the last tag drawn from each, zero at first. -/
abbrev Tags := Nat → UInt64

structure World where
  accounts : Nat → Account
  supplies : Nat → Supply
  tags : Tags
  log : List Event

def Tags.draw (t : Tags) (counter : Nat) : UInt64 × Tags :=
  (t counter + 1, put t counter (t counter + 1))

/-- Draw several tags in a row; the last one is given, or zero if none was drawn. -/
def Tags.drawMany (t : Tags) (counter n : Nat) : UInt64 × Tags :=
  let last := t counter + UInt64.ofNat n
  (if n = 0 then 0 else last, put t counter last)

namespace World

def noTags : Tags := fun _ => 0

def record (w : World) (account : Nat) (act : Act) : World :=
  { w with log := w.log ++ [⟨account, act⟩] }

/-- The next link of an account, marked as given out by it. -/
def dial (w : World) (account : Nat) : Link × World :=
  let s := w.supplies account
  match s.links with
  | [] => ({ s.spare with owner := account }, w)
  | l :: rest =>
    ({ l with owner := account },
      { w with supplies := put w.supplies account { s with links := rest } })

def reports (log : List Event) (account : Nat) : List Health :=
  log.filterMap fun e =>
    match e.act with
    | .report h => if e.account = account then some h else none
    | _ => none

end World

end ImapSession
