import ImapSession.Proofs.Serving
import ImapSession.Server

/-!
Moves of the sessions in a pool, in whatever order. A session moves when it is asked
something, or when its link goes down; the others stand still meanwhile, and the world is
what the move leaves of it. The same moves can be made by a session that is alone.
-/
namespace ImapSession

inductive Move where
  | ask (request : Request)
  | sever
  deriving DecidableEq, Repr

structure Made where
  move : Move
  before : Scene
  answer : Answer
  after : Scene

namespace Move

def opens : Move → Bool
  | ask r => r.opens
  | sever => false

/-- Make a move. There is no answer to a link that goes down. -/
def made (m : Move) (s : Scene) : Made :=
  match m with
  | ask r => ⟨m, s, (r.serve s).1, (r.serve s).2⟩
  | sever => ⟨m, s, .done, { s with session := s.session.sever }⟩

@[simp] theorem before_made (m : Move) (s : Scene) : (m.made s).before = s := by
  cases m <;> rfl

end Move

def Made.events (m : Made) : List Event := m.after.world.log.drop m.before.world.log.length

def Scene.play : List Move → Scene → List Made
  | [], _ => []
  | m :: rest, s => m.made s :: play rest (m.made s).after

def own {α : Type} (i : Nat) (all : List (Nat × α)) : List α :=
  all.filterMap fun (j, a) => if j = i then some a else none

@[simp] theorem own_same {α : Type} (i : Nat) (a : α) (rest : List (Nat × α)) :
    own i ((i, a) :: rest) = a :: own i rest := by
  simp [own]

@[simp] theorem own_other {α : Type} {i j : Nat} (h : j ≠ i) (a : α) (rest : List (Nat × α)) :
    own i ((j, a) :: rest) = own i rest := by
  simp [own, h]

namespace Pool

def scene? (p : Pool) (i : Nat) : Option Scene := p.sessions[i]?.map fun s => ⟨s, p.world⟩

def put (p : Pool) (i : Nat) (s : Scene) : Pool := ⟨p.sessions.set i s.session, s.world⟩

/-- To ask something of a session is a move of it. -/
theorem serve_put {p : Pool} {i : Nat} {s : Scene} (h : p.scene? i = some s) (r : Request) :
    p.serve i r = some (((Move.ask r).made s).answer, p.put i ((Move.ask r).made s).after) := by
  cases hs : p.sessions[i]? with
  | none => simp [scene?, hs] at h
  | some u =>
    obtain rfl : (⟨u, p.world⟩ : Scene) = s := by simpa [scene?, hs] using h
    simp only [serve, hs, Move.made, put]

/-- A link that goes down is a move of its session. -/
theorem change_put {p : Pool} {i : Nat} {s : Scene} (h : p.scene? i = some s) :
    p.change i Session.sever = p.put i (Move.sever.made s).after := by
  cases hs : p.sessions[i]? with
  | none => simp [scene?, hs] at h
  | some u =>
    obtain rfl : (⟨u, p.world⟩ : Scene) = s := by simpa [scene?, hs] using h
    simp [change, put, Move.made, List.modify_eq_set_getElem?, hs]

/-- Let sessions move, each when its number is up. Where there is no session, none moves. -/
def play : List (Nat × Move) → Pool → List (Nat × Made) × Pool
  | [], p => ([], p)
  | (i, m) :: rest, p =>
    match p.scene? i with
    | none => play rest p
    | some s =>
      let (others, q) := play rest (p.put i (m.made s).after)
      ((i, m.made s) :: others, q)

theorem play_some {p : Pool} {i : Nat} {s : Scene} (h : p.scene? i = some s) (m : Move)
    (rest : List (Nat × Move)) : play ((i, m) :: rest) p =
      ((i, m.made s) :: (play rest (p.put i (m.made s).after)).1,
        (play rest (p.put i (m.made s).after)).2) := by
  simp only [play, h]

theorem play_none {p : Pool} {i : Nat} (h : p.scene? i = none) (m : Move)
    (rest : List (Nat × Move)) : play ((i, m) :: rest) p = play rest p := by
  simp only [play, h]

def sampleServer : Server where
  greeting := Utf8.encode "* OK hello\r\n"
  replies := ["* CAPABILITY IMAP4rev1\r\n1 OK done\r\n", "2 OK in\r\n", "3 OK done\r\n",
    "4 OK done\r\n"].map
    fun said => ⟨Utf8.encode said, none⟩
  stalls := false

/-- Two accounts with one counter. The first link of the one fails to take its second line. -/
def sampleShared : World where
  accounts := fun _ => ⟨some "user", some "secret", "host", [], "nonce", 0⟩
  supplies := fun k =>
    if k = 0 then
      ⟨[{ sampleServer.link with writeFaults := [(2, Server.notOpen)] }, sampleServer.link],
        sampleServer.link⟩
    else ⟨[sampleServer.link], sampleServer.link⟩
  tags := World.noTags
  log := []

def samplePool : Pool := ⟨[.bound sampleShared 0, .bound sampleShared 1], sampleShared⟩

/-- The one cannot log in at first, and is then asked again; the other loses its link and
is bound to a third account. -/
def sampleTurns : List (Nat × Move) :=
  [(0, .ask .connect), (1, .ask (.send "NOOP" false)), (0, .ask (.resume "" false)), (1, .sever),
    (1, .ask (.bind 2)), (0, .ask (.execute "NOOP" true))]

end Pool

end ImapSession
