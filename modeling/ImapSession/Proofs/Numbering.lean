import ImapSession.Proofs.Calling
import ImapSession.Proofs.Scheduling

/-!
The tags of sessions that share a counter. However the sessions take turns, and whatever
becomes of each of them, every command that is handed to a link draws the next number from
the counter, whether the link takes it or not, and nothing else draws from it. So the lines
that are written carry rising numbers, in the order in which they are written; and as long
as every line is taken there is no gap between them.
-/
namespace ImapSession

/-- The tags of these calls are the numbers that come after this one. Those of the lines
that were taken are among them, in the same order, and are all of them if every line was. -/
structure Numbered (n : Nat) (calls : List Call) : Prop where
  drawn : (Call.tags calls).map UInt64.toNat = List.range' (n + 1) (Call.tags calls).length
  rising : ((Call.tags (calls.filter Call.taken)).map UInt64.toNat).Pairwise (· < ·)
  above : ∀ tag ∈ Call.tags (calls.filter Call.taken), n < tag.toNat
  whole : (∀ c ∈ calls, c.taken) → (Call.tags (calls.filter Call.taken)).map UInt64.toNat =
    List.range' (n + 1) (Call.tags calls).length

/-- Tags that follow one another are numbers that do, unless the counter comes round. -/
theorem Numbered.of_following {t : UInt64} {calls : List Call}
    (drawn : Call.tags calls = following t (Call.tags calls).length)
    (room : t.toNat + (Call.tags calls).length < UInt64.size) : Numbered t.toNat calls := by
  have numbers : (Call.tags calls).map UInt64.toNat =
      List.range' (t.toNat + 1) (Call.tags calls).length := by
    rw [← following_toNat room, ← drawn]
  have among : ((Call.tags (calls.filter Call.taken)).map UInt64.toNat).Sublist
      (List.range' (t.toNat + 1) (Call.tags calls).length) := by
    rw [← numbers]
    exact (List.filter_sublist.filterMap _).map _
  refine ⟨numbers, (List.pairwise_lt_range').sublist among, fun tag member => ?_, fun all => ?_⟩
  · have within := among.subset (List.mem_map_of_mem member)
    have bounds := List.mem_range'_1.1 within
    omega
  · rw [List.filter_eq_self.2 all, numbers]

/-- The calls that a move may come to; a link that goes down takes no line. -/
def Move.Hands (m : Move) (s : Session) (c : Call) : Prop := ∃ r, m = .ask r ∧ r.Hands s c

/-- A move is a row of calls: commands, which have a tag, and texts that go on with what the
server has asked for, which have none. If it opens nothing there are no commands. -/
structure Made.Calls (m : Made) (calls : List Call) : Prop where
  made : ImapSession.Calls m.before calls m.after
  handed : ∀ c ∈ calls, m.move.Hands m.before.session c
  untagged : m.move.opens = false → Call.tags calls = []

/-- Whatever a session does as a move, it makes a row of calls. -/
theorem Move.made_calls {m : Move} {s : Scene}
    (within : ∀ k, m = .ask (.bind k) → Op.SameCounter s k) :
    ∃ calls, (m.made s).Calls calls := by
  cases m with
  | ask r =>
    obtain ⟨calls, made, handed⟩ :=
      Request.serve_calls (r := r) (s := s) fun k hk => within k (by rw [hk])
    refine ⟨calls, made, fun c hc => ⟨r, rfl, handed c hc⟩, fun closed => ?_⟩
    exact List.filterMap_eq_nil_iff.2 fun c hc => (handed c hc).untagged closed
  | sever =>
    have down : s.Rests { s with session := s.session.sever } :=
      .turn rfl s.session.shifts_sever.link
    exact ⟨[], .rest .none down, nofun, fun _ => rfl⟩

namespace Pool

/-- The sessions draw from this counter, and are bound to no account with another one. -/
structure Shares (p : Pool) (c : Nat) (schedule : List (Nat × Move)) : Prop where
  sessions : ∀ s ∈ p.sessions, s.counter = c
  binds : ∀ i k, (i, .ask (.bind k)) ∈ schedule → (p.world.accounts k).counter = c

theorem Shares.tail {p : Pool} {c : Nat} {turn : Nat × Move} {rest : List (Nat × Move)}
    (h : p.Shares c (turn :: rest)) : p.Shares c rest :=
  ⟨h.sessions, fun i k member => h.binds i k (List.mem_cons_of_mem _ member)⟩

/-- The sessions still share their counter after one of them has moved. -/
theorem Shares.put {p : Pool} {c : Nat} {schedule : List (Nat × Move)} (h : p.Shares c schedule)
    {i : Nat} {t : Scene} (counter : t.session.counter = c)
    (accounts : t.world.accounts = p.world.accounts) : (p.put i t).Shares c schedule where
  sessions s member := by
    rcases List.mem_or_eq_of_mem_set member with old | rfl
    · exact h.sessions s old
    · exact counter
  binds j k member := by
    rw [Pool.put, accounts]
    exact h.binds j k member

/-- The tags and the record of all that the sessions did, as rows of calls. -/
structure Recounts (p q : Pool) (c : Nat) (played : List (Nat × Made)) (rows : List (List Call)) :
    Prop where
  calls : List.Forall₂ (fun made row => made.2.Calls row) played rows
  recorded : written q.world.log = written p.world.log ++ Call.recorded rows.flatten
  counter : q.world.tags c = p.world.tags c + UInt64.ofNat (Call.tags rows.flatten).length
  drawn : Call.tags rows.flatten = following (p.world.tags c) (Call.tags rows.flatten).length

theorem Recounts.cons {p q : Pool} {c : Nat} {i : Nat} {m : Made} {row : List Call}
    {played : List (Nat × Made)} {rows : List (List Call)} (made : m.Calls row)
    (world : m.before.world = p.world) (counter : m.before.session.counter = c)
    (h : (p.put i m.after).Recounts q c played rows) :
    p.Recounts q c ((i, m) :: played) (row :: rows) := by
  obtain ⟨tags, drawn⟩ := made.made.drawn
  have recorded := made.made.recorded
  rw [Opening.lastTag, counter, world] at drawn tags
  have after : (p.put i m.after).world.tags c =
      p.world.tags c + UInt64.ofNat (Call.tags row).length := by
    rw [Pool.put, tags, put_same]
  have others := h.drawn
  have last := h.counter
  rw [after] at others last
  refine ⟨.cons made h.calls, ?_, ?_, ?_⟩
  · simp [h.recorded, Pool.put, recorded, world]
  · simp [last, UInt64.ofNat_add, UInt64.add_assoc]
  · rw [List.flatten_cons, Call.tags_append, List.length_append, following_add, ← drawn, ← others]

theorem scene_eq {p : Pool} {i : Nat} {s : Scene} (h : p.scene? i = some s) :
    s.session ∈ p.sessions ∧ s.world = p.world := by
  obtain ⟨u, hu, rfl⟩ := Option.map_eq_some_iff.1 h
  exact ⟨List.mem_of_getElem? hu, rfl⟩

/-- All that the sessions do is one row of calls after the other. -/
theorem play_recounts {p : Pool} {c : Nat} {schedule : List (Nat × Move)}
    (shares : p.Shares c schedule) :
    ∃ rows, p.Recounts (play schedule p).2 c (play schedule p).1 rows := by
  induction schedule generalizing p with
  | nil =>
    exact ⟨[], .nil, by simp [play, Call.recorded], by simp [play, Call.tags],
      by simp [Call.tags, following]⟩
  | cons turn rest ih =>
    obtain ⟨i, m⟩ := turn
    cases hs : p.scene? i with
    | none =>
      rw [play_none hs]
      exact ih shares.tail
    | some s =>
      obtain ⟨member, world⟩ := scene_eq hs
      have counter := shares.sessions _ member
      have within : ∀ k, m = .ask (.bind k) → Op.SameCounter s k := by
        rintro k rfl
        rw [Op.SameCounter, world, counter]
        exact shares.binds i k (List.mem_cons_self ..)
      obtain ⟨row, made⟩ := Move.made_calls within
      have after : (m.made s).after.session.counter = c := by
        simp [made.made.counter, counter]
      have accounts : (m.made s).after.world.accounts = p.world.accounts := by
        simp [made.made.accounts, world]
      obtain ⟨rows, recounts⟩ := ih (shares.tail.put (i := i) after accounts)
      rw [play_some hs]
      exact ⟨row :: rows, .cons made (by simp [world])
        (by simp [counter]) recounts⟩

/-- However sessions that share a counter take turns, every move of theirs is a row of calls,
what is recorded is what the links took of all these calls, and the counter has moved on by
the number of calls with a tag. As long as it does not come round, the tags are numbers that
rise with every line, without a gap if no link failed to take one. -/
theorem tags_numbered {p : Pool} {c : Nat} {schedule : List (Nat × Move)}
    (shares : p.Shares c schedule) :
    let q := (play schedule p).2
    let n := (p.world.tags c).toNat
    ∃ rows : List (List Call),
      List.Forall₂ (fun made row => made.2.Calls row) (play schedule p).1 rows ∧
      written q.world.log = written p.world.log ++ Call.recorded rows.flatten ∧
      (n + (Call.tags rows.flatten).length < UInt64.size →
        (q.world.tags c).toNat = n + (Call.tags rows.flatten).length ∧
        Numbered n rows.flatten) := by
  intro q n
  obtain ⟨rows, recounts⟩ := play_recounts shares
  refine ⟨rows, recounts.calls, recounts.recorded, fun room => ⟨?_, ?_⟩⟩
  · have below : (Call.tags rows.flatten).length < UInt64.size := by omega
    rw [recounts.counter, UInt64.toNat_add, UInt64.toNat_ofNat', Nat.mod_eq_of_lt below,
      Nat.mod_eq_of_lt room]
  · exact .of_following recounts.drawn room

/-- The login that was not taken has drawn its tag, and the empty line none. -/
theorem tags_numbered_sample : samplePool.Shares 0 sampleTurns ∧
    ∃ rows : List (List Call),
      List.Forall₂ (fun made row => made.2.Calls row) (play sampleTurns samplePool).1 rows ∧
      (Call.recorded rows.flatten).map Prod.fst = ["1 CAPABILITY", "3 CAPABILITY",
        "4 LOGIN user \"secret\"", "5 NOOP", "", "6 CAPABILITY", "7 LOGIN user \"secret\"",
        "8 NOOP"] ∧
      ((Call.tags rows.flatten).length < UInt64.size → Numbered 0 rows.flatten) := by
  have shares : samplePool.Shares 0 sampleTurns := ⟨by decide, fun _ _ _ => rfl⟩
  obtain ⟨rows, calls, recorded, numbered⟩ := tags_numbered shares
  have lines : (written (play sampleTurns samplePool).2.world.log).map Prod.fst =
      ["1 CAPABILITY", "3 CAPABILITY", "4 LOGIN user \"secret\"", "5 NOOP", "",
        "6 CAPABILITY", "7 LOGIN user \"secret\"", "8 NOOP"] := by decide +kernel
  have start : (samplePool.world.tags 0).toNat = 0 := rfl
  rw [start, Nat.zero_add] at numbered
  rw [recorded] at lines
  exact ⟨shares, rows, calls, lines, fun room => (numbered room).2⟩

end Pool

end ImapSession
