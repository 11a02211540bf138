import ImapSession.Proofs.Accounting
import ImapSession.Proofs.Lockstep
import ImapSession.Proofs.Steady

/-!
How the answer to a command is collected. Responses are read one after another, and the first
that is not untagged decides: a request to continue or an OK ends the answer well, any other
completion is a refusal, and it is reported once. A read that fails before that is the failure
of the whole. Whatever comes, what is left to read is what stands behind the last response that
was read, and the session is where it was.
-/
namespace ImapSession

open ImapSession.Stream (delivered)

/-- What a session has still to read: what it holds of an unfinished response, and what is on
its way behind that. -/
def Scene.ahead (s : Scene) : List UInt8 :=
  (match s.session.framer with
    | some f => f.held
    | none => []) ++
  match s.session.link with
  | some l => delivered l.incoming
  | none => []

def Scene.reporting (s : Scene) (h : Health) : Scene :=
  { s with world :=
    match s.session.account with
    | some k => s.world.record k (.report h)
    | none => s.world }

def Scene.after (s : Scene) (l : Link) (kept : Framer) (left : Stream) : Scene :=
  { s with session := { s.session with
    framer := some kept, link := some { l with incoming := left.segments } } }

/-- All of the session but its link and its framer is as it was, and so is all of the world but
the record. -/
def Scene.Still (s t : Scene) : Prop :=
  t.session = { s.session with link := t.session.link, framer := t.session.framer } ∧
    t.world = { s.world with log := t.world.log }

theorem Scene.Still.trans {s t u : Scene} (h : s.Still t) (h' : t.Still u) : s.Still u := by
  obtain ⟨session, world⟩ := h
  obtain ⟨session', world'⟩ := h'
  exact ⟨by rw [session', session], by rw [world', world]⟩

theorem Scene.still_reporting (s : Scene) (h : Health) : s.Still (s.reporting h) := by
  unfold reporting
  split <;> exact ⟨rfl, rfl⟩

namespace Op

inductive Reads : Scene → List Response → Scene → Prop
  | none {s : Scene} : Reads s [] s
  | more {s t u : Scene} {r : Response} {rs : List Response} (first : read s = .ok r t)
      (rest : Reads t rs u) : Reads s (r :: rs) u

/-- The ways an answer can end. -/
inductive Batch (s : Scene) : EStateM.Result Failure Scene (List Response) → Prop
  | answered {before : List Response} {last : Response} {t : Scene}
      (reads : Reads s (before ++ [last]) t) (untagged : ∀ r ∈ before, r.isUntagged = true)
      (ends : last.isContinuation = true ∨ last.isCompletion = true ∧ last.isOk = true) :
      Batch s (.ok (before ++ [last]) t)
  | refused {before : List Response} {last : Response} {t : Scene}
      (reads : Reads s (before ++ [last]) t) (untagged : ∀ r ∈ before, r.isUntagged = true)
      {e : Failure} (refuses : Refuses last e) : Batch s (.error e (t.reporting .serverError))
  | failed {before : List Response} {t u : Scene} {e : Failure} (reads : Reads s before t)
      (untagged : ∀ r ∈ before, r.isUntagged = true) (fails : read t = .error e u) :
      Batch s (.error e u)

/-- What some responses take with them when they are read: their own bytes and no others, so
that nothing is held behind them. -/
structure Took (s : Scene) (rs : List Response) (t : Scene) : Prop where
  ahead : s.ahead = rs.flatMap Response.raw ++ t.ahead
  clean : rs ≠ [] → t.session.framer = some .empty
  still : s.Still t
  world : t.world = s.world

variable {α : Type} {s t u : Scene} {r : Response} {rs before : List Response} {e : Failure}

/-- Without a framer and a link that is up nothing is read, whatever is to be read. -/
theorem reading_cases (s : Scene) :
    (∃ e, ∀ {α : Type} (g : Framer → Stream → Except Failure α × Framer × Stream),
      reading g s = .error e s) ∨
    ∃ f l, s.session.framer = some f ∧ s.session.link = some l ∧ l.isOpen = true := by
  cases hf : s.session.framer with
  | none =>
    have ha : framer s = .error .lost s := demand_none hf
    exact .inl ⟨.lost, fun g => by rw [reading, bind_error ha]⟩
  | some f =>
    have ha : framer s = .ok f s := demand_some hf
    cases hl : s.session.link with
    | none =>
      have hb : link s = .error .lost s := demand_none hl
      exact .inl ⟨.lost, fun g => by rw [reading, bind_ok ha, bind_error hb]⟩
    | some l =>
      have hb : link s = .ok l s := demand_some hl
      by_cases isOpen : l.isOpen = true
      · exact .inr ⟨f, l, rfl, rfl, isOpen⟩
      · refine .inl ⟨.link l.closedFault, fun g => ?_⟩
        rw [reading, bind_ok ha, bind_ok hb, if_neg isOpen]
        rfl

/-- What is read comes off the stream of the link. -/
theorem reading_up {g : Framer → Stream → Except Failure α × Framer × Stream} {f kept : Framer}
    {l : Link} {left : Stream} {result : Except Failure α} (hf : s.session.framer = some f)
    (hl : s.session.link = some l) (isOpen : l.isOpen = true)
    (hg : g f l.stream = (result, kept, left)) :
    reading g s = ending result (s.after l kept left) := by
  have ha : framer s = .ok f s := demand_some hf
  have hb : link s = .ok l s := demand_some hl
  rw [reading, bind_ok ha, bind_ok hb, if_pos isOpen, hg]
  cases result <;> rfl

/-- A response is the next one in the stream. -/
theorem read_ok (h : read s = .ok r t) : ∃ f l kept left, s.session.framer = some f ∧
    s.session.link = some l ∧ f.next l.stream = (.ok r, kept, left) ∧ t = s.after l kept left := by
  rcases reading_cases s with ⟨e, fails⟩ | ⟨f, l, hf, hl, isOpen⟩
  · rw [read, fails] at h
    cases h
  · rcases hn : f.next l.stream with ⟨result, kept, left⟩
    rw [read, reading_up hf hl isOpen hn] at h
    cases result with
    | error e => cases h
    | ok r' =>
      obtain ⟨rfl, rfl⟩ := EStateM.Result.ok.inj h
      exact ⟨f, l, kept, left, hf, hl, hn, rfl⟩

/-- A response that is read is what its bytes are read as. -/
theorem response_of_read (h : read s = .ok r t) : Line.response? r.raw = some r := by
  obtain ⟨f, l, kept, left, -, -, hn, rfl⟩ := read_ok h
  rw [(Framer.raw_of_next hn).2]
  exact Framer.response_of_next hn

/-- One more response is read, unless it is the last. -/
theorem reading_batchOnto (done : List Response) (s : Scene) :
    reading (Framer.batchOnto done) s =
      (do
        let r ← read
        if Framer.isTerminal r = true then pure (done.reverse, r)
        else reading (Framer.batchOnto (r :: done))) s := by
  rcases reading_cases s with ⟨e, fails⟩ | ⟨f, l, hf, hl, isOpen⟩
  · have one : read s = .error e s := fails _
    rw [fails, bind_error one]
  · have idle : (f.next l.stream).2.2.idle = l.stream.idle := by
      rw [Framer.next_eq, Framer.rest_conclude]
    rcases hn : f.next l.stream with ⟨result, kept, left⟩
    rw [hn] at idle
    have one : read s = ending result (s.after l kept left) := reading_up hf hl isOpen hn
    cases result with
    | error e =>
      rw [bind_error one, reading_up hf hl isOpen (Framer.batchOnto_error hn done)]
      rfl
    | ok r =>
      rw [bind_ok one]
      by_cases terminal : Framer.isTerminal r = true
      · rw [if_pos terminal,
          reading_up hf hl isOpen (Framer.batchOnto_terminal hn terminal done)]
        rfl
      · have stream : { l with incoming := left.segments }.stream = left := by
          rw [Link.stream, ← show left.idle = l.peer.idle from idle]
        rcases hb : Framer.batchOnto (r :: done) kept left with ⟨result, kept', left'⟩
        have whole : Framer.batchOnto done f l.stream = (result, kept', left') :=
          (Framer.batchOnto_untagged hn (by simpa using terminal) done).trans hb
        have more : reading (Framer.batchOnto (r :: done)) (s.after l kept left) = _ :=
          reading_up rfl rfl isOpen (by rw [stream, hb])
        rw [if_neg terminal, reading_up hf hl isOpen whole, more]
        rfl

theorem took_read (h : read s = .ok r t) : Took s [r] t := by
  obtain ⟨f, l, kept, left, hf, hl, hn, rfl⟩ := read_ok h
  obtain ⟨taken, parted, accounted⟩ := Framer.next_accounted f l.stream
  rw [hn] at parted accounted
  obtain ⟨raw, rfl, -⟩ : r.raw = f.held ++ taken ∧ kept = .empty ∧ _ := accounted
  refine ⟨?_, fun _ => rfl, ⟨rfl, rfl⟩, rfl⟩
  have on : delivered l.incoming = taken ++ delivered left.segments := parted
  simp only [Scene.ahead, Scene.after, hf, hl, on, raw, List.flatMap_cons, List.flatMap_nil]
  simp [Framer.held, Framer.empty]

theorem Reads.took (h : Reads s rs t) : Took s rs t := by
  induction h with
  | none => exact ⟨rfl, fun some => absurd rfl some, ⟨rfl, rfl⟩, rfl⟩
  | @more s t u r rs first rest ih =>
    have one := took_read first
    refine ⟨?_, fun _ => ?_, one.still.trans ih.still, ih.world.trans one.world⟩
    · rw [one.ahead, ih.ahead]
      simp
    · cases rest with
      | none => exact one.clean (by simp)
      | more => exact ih.clean (by simp)

/-- A read that fails reports nothing. -/
theorem read_error (h : read s = .error e t) : s.Still t ∧ t.world = s.world := by
  rcases reading_cases s with ⟨e', fails⟩ | ⟨f, l, hf, hl, isOpen⟩
  · rw [read, fails] at h
    obtain ⟨-, rfl⟩ := EStateM.Result.error.inj h
    exact ⟨⟨rfl, rfl⟩, rfl⟩
  · rcases hn : f.next l.stream with ⟨result, kept, left⟩
    rw [read, reading_up hf hl isOpen hn] at h
    cases result with
    | ok r => cases h
    | error e' =>
      obtain ⟨-, rfl⟩ := EStateM.Result.error.inj h
      exact ⟨⟨rfl, rfl⟩, rfl⟩

def incoming (s : Scene) : Nat :=
  match s.session.link with
  | some l => Stream.size l.incoming
  | none => 0

theorem incoming_read (h : read s = .ok r t) : incoming t < incoming s := by
  obtain ⟨f, l, kept, left, -, hl, hn, rfl⟩ := read_ok h
  have fewer : Stream.size left.segments < Stream.size l.incoming := Framer.size_next hn
  simpa only [incoming, Scene.after, hl] using fewer

theorem reads_one : Reads s [r] t ↔ read s = .ok r t := by
  constructor
  · intro h
    cases h with
    | more first rest =>
      cases rest with
      | none => exact first
  · exact fun h => .more h .none

theorem reads_append {rs' : List Response} :
    Reads s (rs ++ rs') u ↔ ∃ t, Reads s rs t ∧ Reads t rs' u := by
  constructor
  · intro h
    induction rs generalizing s with
    | nil => exact ⟨s, .none, h⟩
    | cons r rs ih =>
      cases h with
      | more first rest =>
        obtain ⟨t, reads, reads'⟩ := ih rest
        exact ⟨t, .more first reads, reads'⟩
  · rintro ⟨t, h, h'⟩
    induction h with
    | none => exact h'
    | more first _ ih => exact .more first (ih h')

/-- Reading always comes to a response that is not untagged, or to a read that fails: each
response takes bytes off the stream. -/
theorem reads_through (s : Scene) : ∃ before t, Reads s before t ∧
    (∀ r ∈ before, r.isUntagged = true) ∧
    ((∃ last u, read t = .ok last u ∧ Framer.isTerminal last = true) ∨
      ∃ e u, read t = .error e u) := by
  generalize count : incoming s = n
  induction n using Nat.strongRecOn generalizing s with
  | ind n ih =>
    cases one : read s with
    | error e u => exact ⟨[], s, .none, by simp, .inr ⟨e, u, one⟩⟩
    | ok r t =>
      by_cases terminal : Framer.isTerminal r = true
      · exact ⟨[], s, .none, by simp, .inl ⟨r, t, one, terminal⟩⟩
      · have plain : r.isUntagged = true := Response.untagged_iff.2 (by simpa using terminal)
        obtain ⟨before, u, reads, untagged, rest⟩ := ih _ (count ▸ incoming_read one) t rfl
        exact ⟨r :: before, u, .more one reads, by simpa using ⟨plain, untagged⟩, rest⟩

/-- There is a way for every answer to end. -/
theorem batch_some (s : Scene) : ∃ result, Batch s result := by
  obtain ⟨before, t, reads, untagged, ⟨last, u, one, terminal⟩ | ⟨e, u, fails⟩⟩ := reads_through s
  · have whole : Reads s (before ++ [last]) u := reads_append.2 ⟨t, reads, reads_one.2 one⟩
    by_cases asks : last.isContinuation = true
    · exact ⟨_, .answered whole untagged (.inl asks)⟩
    · have completes : last.isCompletion = true := by
        simpa [Framer.isTerminal, asks] using terminal
      cases good : last.isOk with
      | true => exact ⟨_, .answered whole untagged (.inr ⟨completes, good⟩)⟩
      | false =>
        have refuses : Refuses last (refusal last) :=
          (refuses_iff (response_of_read one) completes good).2 rfl
        exact ⟨_, .refused whole untagged refuses⟩
  · exact ⟨_, .failed reads untagged fails⟩

/-- Untagged responses are kept, and the reading goes on behind them. -/
theorem reading_untagged (h : Reads s before t) (untagged : ∀ r ∈ before, r.isUntagged = true)
    (done : List Response) : reading (Framer.batchOnto done) s =
      reading (Framer.batchOnto (before.reverse ++ done)) t := by
  induction h generalizing done with
  | none => rfl
  | @more s t u r rs first rest ih =>
    have plain : Framer.isTerminal r = false := Response.untagged_iff.1 (untagged r (by simp))
    rw [reading_batchOnto, bind_ok first, if_neg (by simp [plain]),
      ih (fun r hr => untagged r (by simp [hr])) (r :: done)]
    simp

/-- A response that is not untagged is the last that is read. -/
theorem reading_last {last : Response} (h : Reads s (before ++ [last]) t)
    (untagged : ∀ r ∈ before, r.isUntagged = true) (terminal : Framer.isTerminal last = true) :
    reading Framer.batch s = .ok (before, last) t := by
  obtain ⟨mid, reads, one⟩ := reads_append.1 h
  have through : reading Framer.batch s = _ := reading_untagged reads untagged []
  rw [through, reading_batchOnto, bind_ok (reads_one.1 one), if_pos terminal, List.append_nil,
    List.reverse_reverse]
  rfl

theorem collect_of_batch {result : EStateM.Result Failure Scene (List Response)}
    (h : Batch s result) : collect s = result := by
  cases h with
  | @answered before last t reads untagged ends =>
    have terminal : Framer.isTerminal last = true := by
      rcases ends with asks | ⟨completes, -⟩
      · simp [Framer.isTerminal, asks]
      · simp [Framer.isTerminal, completes]
    have good : (last.isContinuation || last.isOk) = true := by
      rcases ends with asks | ⟨-, isOk⟩
      · simp [asks]
      · simp [isOk]
    rw [collect, bind_ok (reading_last reads untagged terminal)]
    dsimp only
    rw [if_pos good]
    rfl
  | @refused before last t reads untagged e refuses =>
    obtain ⟨completes, failed⟩ := refuses.completion
    obtain ⟨mid, -, one⟩ := reads_append.1 reads
    obtain rfl := (refuses_iff (response_of_read (reads_one.1 one)) completes failed).1 refuses
    have terminal : Framer.isTerminal last = true := by simp [Framer.isTerminal, completes]
    have other : ¬(last.isContinuation || last.isOk) = true := by
      simp [Response.not_continuation completes, failed]
    have empty := reads.took.clean (by simp)
    have discarded : discard t = .ok () t := by
      simp only [discard, setSession, empty, Option.map_some]
      rw [← empty]
    have reported : report .serverError t = .ok () (t.reporting .serverError) := report_eq _ t
    rw [collect, bind_ok (reading_last reads untagged terminal)]
    dsimp only
    rw [if_neg other, bind_ok discarded, bind_ok reported, refusal]
    split <;> rfl
  | @failed before t u e reads untagged fails =>
    have made : reading Framer.batch s = .error e u := by
      have through : reading Framer.batch s = _ := reading_untagged reads untagged []
      rw [through, reading_batchOnto, bind_error fails]
    rw [collect, bind_error made]

theorem collect_iff {result : EStateM.Result Failure Scene (List Response)} :
    collect s = result ↔ Batch s result := by
  constructor
  · rintro rfl
    obtain ⟨result, h⟩ := batch_some s
    rwa [collect_of_batch h]
  · exact collect_of_batch

/-- Nothing that is done for an answer moves the session. -/
theorem still_collect (s : Scene) : Ends collect s (fun _ => s.Still) (fun _ => s.Still) := by
  obtain ⟨result, h⟩ := batch_some s
  rw [Ends, collect_of_batch h]
  cases h with
  | answered reads => exact reads.took.still
  | refused reads => exact reads.took.still.trans (Scene.still_reporting _ _)
  | failed reads _ fails => exact reads.took.still.trans (read_error fails).1

/-- The answer to a command is what is read up to the first response that is not untagged, and
nothing behind it. It is given if that response asks for more or is an OK; otherwise it is
refused, with one report; and a read that fails before is its failure, with none. -/
theorem collect_exact (s : Scene) :
    (∀ result, collect s = result ↔ Batch s result) ∧
    (∀ rs t, Reads s rs t →
      Took s rs t ∧ ∀ e u, read t = .error e u → u.world = s.world) ∧
    Ends collect s (fun _ => s.Still) (fun _ => s.Still) := by
  refine ⟨fun _ => collect_iff, fun rs t reads => ⟨reads.took, fun e u fails => ?_⟩,
    still_collect s⟩
  exact (read_error fails).2.trans reads.took.world

end Op

end ImapSession
