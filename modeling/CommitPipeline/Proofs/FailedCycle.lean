import CommitPipeline.Proofs.Frame
import CommitPipeline.Proofs.PickedRows

/-!
# A cycle that fails leaves no trace

A cycle that is skipped, or that fails in any tracker and phase, leaves database, pipeline, signals
and the trackers of the library as they were. What the trackers wrote goes with the working copy of
the transaction, and the rows that a tail had picked are dropped when it hears of the failure. So
if the ticket came from a negotiation on an idle pipeline, everything that is done afterwards goes
as if there had been neither negotiation nor cycle.

Two things a failed cycle does not hide. A guest may mark the ticket as written before it objects,
and a report that comes in between the negotiation and the cycle is turned away by the mark.

The module introduces:

* `Pipeline.Untouched` — what a failed cycle leaves;
* `Guest.LeavesFlushed` — a guest that leaves it to the pipeline to mark a ticket as written;
* `Move.Quiet` — moves that have nothing to do with the mark of a cycle in flight;
* `failed_cycle_visible` — a ticket that comes back marked, and a report that is lost;
* `failed_cycle_invisible` — what a failed cycle leaves, and what follows for later moves.
-/

namespace CommitPipeline

variable {γ : Type} [Guest γ]

/-! ## Guests and tickets -/

/-- A guest leaves it to the pipeline to mark a ticket as written, both when it gets ready and when
it writes after that. -/
structure Guest.LeavesFlushed (g : γ) : Prop where
  prepare : ∀ k : Ticket, (Guest.prepare (g, k)).2.2.flushed = k.flushed
  write : ∀ (before k : Ticket) (s : Store),
    (Guest.write ((Guest.prepare (g, before)).2.1, k, s)).2.2.1.flushed = k.flushed

namespace Member

/-- If the tracker is a guest, it leaves tickets unmarked. -/
def LeavesFlushed (t : Member γ) : Prop := ∀ g, t = guest g → Guest.LeavesFlushed g

/-- If the tracker is a guest, it leaves tickets unmarked when it is asked to write now. -/
def WritesUnmarked (t : Member γ) : Prop :=
  ∀ g, t = guest g → ∀ k s, (Guest.write (g, k, s)).2.2.1.flushed = k.flushed

/-- Getting ready leaves the ticket unmarked, and so will writing. -/
theorem flushed_prepare {t : Member γ} (ht : t.LeavesFlushed) (fx : Effects) (k : Ticket) :
    (prepare (t, fx, k)).2.1.WritesUnmarked ∧
      (prepare (t, fx, k)).2.2.2.flushed = k.flushed := by
  cases t with
  | memory b =>
    refine ⟨?_, rfl⟩
    rintro g ⟨⟩
  | durable b =>
    refine ⟨?_, rfl⟩
    rintro g ⟨⟩
  | tail t =>
    cases hstage : t.stage k.range <;> rw [prepare, hstage] <;> refine ⟨?_, rfl⟩ <;> rintro g ⟨⟩
  | guest g =>
    have hg := ht g rfl
    refine ⟨?_, hg.prepare k⟩
    rintro _ ⟨⟩
    exact hg.write k

/-- Only guests can mark a ticket when they write. -/
theorem flushed_write {t : Member γ} (ht : t.WritesUnmarked) (fx : Effects) (k : Ticket)
    (s : Store) : (write (t, fx, k, s)).2.2.2.1.flushed = k.flushed := by
  cases t with
  | memory b => rfl
  | durable b => rfl
  | tail t =>
    rcases hwrite : t.writeStaged k.range s with ⟨_ | _, _⟩ <;> simp only [write, hwrite]
  | guest g => exact ht g rfl k s

end Member

namespace Pipeline

variable {p q : Pipeline (Member γ)} {k k' : Ticket} {result : Except Stop Outcome}

/-- The pipeline with the mark of a cycle in flight set or taken away. -/
def withMark {τ : Type} (mark : Bool) (p : Pipeline τ) : Pipeline τ := { p with inFlight := mark }

/-- From `p` to `q` nothing changed that belongs to the library: the database, the durable round,
the signals and every tracker but guests are what they were, and no tail has rows picked. -/
structure Untouched (p q : Pipeline (Member γ)) : Prop where
  store : q.store = p.store
  durable : q.durable = p.durable
  loaded : q.loaded = p.loaded
  flushed : q.flushed = p.flushed
  signals : q.effects.signals = p.effects.signals
  trackers : List.Forall₂ Member.Same p.trackers q.trackers
  unstaged : q.Unstaged

section Tickets

variable {I : Ticket → Prop} {G H : Member γ → Prop}
  (hprepare : ∀ (t : Member γ) fx k, G t → I k →
    H (Member.prepare (t, fx, k)).2.1 ∧ I (Member.prepare (t, fx, k)).2.2.2)
  (hwrite : ∀ (t : Member γ) fx k s, H t → I k → I (Member.write (t, fx, k, s)).2.2.2.1)

/-- An error is told to the trackers with the ticket as it is. -/
theorem ticket_failWith (n : Notice) (e : PipelineError) (k : Ticket) :
    (p.failWith n e k).2.1 = k := by
  unfold failWith
  split <;> rfl

include hwrite in
/-- What the trackers keep of a ticket when they write, it still has behind the transaction. -/
theorem ticket_transaction (newBase : Round) (hp : ∀ t ∈ p.trackers, H t) (hk : I k) :
    I (p.transaction newBase k).2.1 := by
  have hwritten := sweep_context (I := fun c : Effects × Ticket × Store => I c.2.1)
    (fun t c ht hc => hwrite t c.1 c.2.1 c.2.2 ht hc) p.trackers (c := (p.effects, k, p.store))
    hp hk
  unfold transaction Store.transact writeAll
  rcases h : sweep Tracker.write p.trackers (p.effects, k, p.store) with
    ⟨stop | _, _, _, k', _⟩ <;> rw [show sweep Member.write _ _ = _ from h] at hwritten <;>
    exact hwritten

include hwrite in
/-- The same behind a whole write phase that failed. -/
theorem ticket_writePhase (hfailed : Failed (p.writePhase k).1) (hp : ∀ t ∈ p.trackers, H t)
    (hk : I k) : I (p.writePhase k).2.1 := by
  unfold writePhase at hfailed ⊢
  cases hnew : k.newBase with
  | error f =>
    rw [hnew] at hfailed
    cases hfailed
  | ok newBase =>
    simp only [hnew] at hfailed ⊢
    have htransaction := ticket_transaction hwrite (p := p) newBase hp hk
    rcases h : p.transaction newBase k with ⟨(e | f) | _, k', q⟩ <;>
      rw [h] at hfailed htransaction
    · show I ((q.log _).failWith .writeFailed e k').2.1
      rw [ticket_failWith]
      exact htransaction
    · cases hfailed
    -- What was written either lands or is cut short.
    · have hresult := (settleLanded_result (p := q) newBase k').2
      simp only at hfailed
      rcases hresult with heq | ⟨f, heq⟩ <;> rw [heq] at hfailed <;> cases hfailed

include hprepare hwrite in
/-- The same from the prepare phase on. -/
theorem ticket_preparePhase (hfailed : Failed (p.preparePhase k).1) (hp : ∀ t ∈ p.trackers, G t)
    (hk : I k) : I (p.preparePhase k).2.1 := by
  have hprepared : I (p.prepareAll k).2.1 :=
    sweep_context (I := fun c : Effects × Ticket => I c.2)
      (fun t c ht hc => (hprepare t c.1 c.2 ht hc).2) p.trackers (c := (p.effects, k)) hp hk
  -- Only if everybody got ready is anybody asked to write.
  have hready : (p.prepareAll k).1 = .ok () → ∀ t ∈ (p.prepareAll k).2.2.trackers, H t := fun hok =>
    (sweep_forall_of_ok (H := H) (I := fun c : Effects × Ticket => I c.2)
      (fun t c ht hc _ => hprepare t c.1 c.2 ht hc) p.trackers (c := (p.effects, k)) hp hk hok).1
  unfold preparePhase at hfailed ⊢
  rcases h : p.prepareAll k with ⟨(e | f) | _, k', q⟩ <;> rw [h] at hfailed hprepared hready
  · show I ((q.log _).failWith .prepareFailed e k').2.1
    rw [ticket_failWith]
    exact hprepared
  · cases hfailed
  · exact ticket_writePhase hwrite hfailed (hready rfl) hprepared

include hprepare hwrite in
/-- What the trackers keep of a ticket when they get ready and when they write, it still has after a
cycle that failed. -/
theorem ticket_of_failed (hfailed : Failed (p.runCycle k).1) (hp : ∀ t ∈ p.trackers, G t)
    (hk : I k) : I (p.runCycle k).2.1 := by
  unfold runCycle at hfailed ⊢
  simp only at hfailed ⊢
  split
  · exact hk
  next hloaded =>
  rw [if_neg hloaded] at hfailed
  split
  · unfold skipPhase
    split <;> exact hk
  next hbase =>
  rw [if_neg hbase] at hfailed
  exact ticket_preparePhase hprepare hwrite hfailed hp hk

end Tickets

/-! ## The mark -/

section Marks

variable {τ : Type} [Tracker τ]

omit [Tracker τ] in
/-- Trackers are asked without a look at the mark. -/
theorem ask_withMark {ε : Type} (question : Act ε (τ × Effects) Unit) (mark : Bool)
    (p : Pipeline τ) :
    (p.withMark mark).ask question = ((p.ask question).1, (p.ask question).2.withMark mark) := rfl

/-- A replay neither looks at the mark nor changes it. -/
theorem replay_withMark (ledger : LedgerView) (count : Nat) (r : Round) (mark : Bool)
    (p : Pipeline τ) :
    (p.withMark mark).replay ledger count r =
      ((p.replay ledger count r).1, (p.replay ledger count r).2.withMark mark) := by
  induction count generalizing r p with
  | zero => rfl
  | succ count ih =>
    unfold replay newBlock
    cases ledger.block r with
    | none => rfl
    | some entry =>
      obtain ⟨block, delta⟩ := entry
      simp only [ask_withMark]
      rcases p.ask (Tracker.newBlock block delta) with ⟨f | _, q⟩
      · rfl
      cases r.next with
      | error f => rfl
      | ok following =>
        simp only [ih]
        rcases q.replay ledger count following with ⟨_ | _, _⟩ <;> rfl

/-- A load neither looks at the mark nor changes it. -/
theorem load_withMark (ledger : LedgerView) (mark : Bool) (p : Pipeline τ) :
    ((p.withMark mark).load ledger).2 = (p.load ledger).2.withMark mark := by
  have hstore : (p.withMark mark).store = p.store := rfl
  unfold load replayAbove
  simp only [ask_withMark, hstore]
  split
  · rfl
  rcases p.ask (Tracker.load ledger p.store p.store.round) with ⟨stop | _, q⟩
  · rfl
  cases p.store.round.next with
  | error f => rfl
  | ok first =>
    simp only [replay_withMark]
    rcases q.replay ledger (ledger.latest.since p.store.round).toNat first with ⟨_ | _, _⟩ <;> rfl

/-- The trackers are closed without a look at the mark. -/
theorem close_withMark (mark : Bool) (p : Pipeline τ) :
    (p.withMark mark).close.2 = p.close.2.withMark mark := by
  unfold close
  rw [ask_withMark]
  rcases p.ask Tracker.close with ⟨_ | _, _⟩ <;> rfl

end Marks

end Pipeline

namespace Move

/-- A move that neither negotiates nor runs a cycle, and does not give the mark of one back. -/
inductive Quiet : Move → Prop
  | load (ledger : LedgerView) : Quiet (operate (.load ledger))
  | newBlock (block : Block) (delta : Delta) : Quiet (operate (.newBlock block delta))
  | startWorker : Quiet (operate (.request .startWorker))
  | takeTicket : Quiet (operate (.request .takeTicket))
  | retire : Quiet (operate (.request .retire))
  | close : Quiet (operate .close)
  | wait (place : Nat) (round : Round) : Quiet (wait place round)

/-- A quiet move neither looks at the mark nor changes it. -/
theorem run_withMark {move : Move} (h : move.Quiet) (mark : Bool) (p : Pipeline (Member γ)) :
    move.run (p.withMark mark) = (move.run p).withMark mark := by
  cases h with
  | load ledger => exact Pipeline.load_withMark ledger mark p
  | newBlock block delta => rfl
  | startWorker =>
    obtain ⟨_, _, _, _, _, _, _, _, _, _, intake⟩ := p
    cases intake <;> rfl
  | takeTicket =>
    obtain ⟨_, _, _, _, _, _, _, _, _, queue, intake⟩ := p
    cases intake <;> cases queue <;> rfl
  | retire => rfl
  | close => exact Pipeline.close_withMark mark p
  | wait place r =>
    have htrackers : (p.withMark mark).trackers = p.trackers := rfl
    simp only [run, Pipeline.waitAt, htrackers]
    cases p.trackers[place]? <;> rfl

/-- Quiet moves lead from pipelines that differ in the mark to such pipelines. -/
theorem runAll_withMark {moves : List Move} (h : ∀ move ∈ moves, move.Quiet) (mark : Bool)
    (p : Pipeline (Member γ)) :
    runAll moves (p.withMark mark) = (runAll moves p).withMark mark := by
  induction moves generalizing p with
  | nil => rfl
  | cons move rest ih =>
    obtain ⟨hmove, hrest⟩ := List.forall_mem_cons.mp h
    have hfirst := run_withMark hmove mark p
    show runAll rest (move.run (p.withMark mark)) = _
    rw [hfirst]
    exact ih hrest _

end Move

namespace Pipeline

variable {p q : Pipeline (Member γ)} {k k' : Ticket} {result : Except Stop Outcome}

/-! ## What is left -/

variable [KeepsRange γ]

/-- A cycle that failed is steady. -/
theorem steady_of_failed (hfailed : Failed (p.runCycle k).1) :
    p.Steady (p.runCycle k).2.2 := by
  rcases runCycle_cases k p with hfruitless | ⟨newBase, k₁, q₁, -, heq⟩
  · exact hfruitless.steady
  · rw [heq] at hfailed
    rcases (settleLanded_result (p := q₁) newBase k₁).2 with hresult | ⟨f, hresult⟩ <;>
      rw [hresult] at hfailed <;> cases hfailed

variable [Answers γ]

/-- A cycle that failed leaves the mark free, and nothing else that belongs to the library. -/
theorem untouched_of_failed (hp : p.Unstaged) (h : p.commit k = (result, k', q))
    (hfailed : Failed result) :
    p.Untouched q ∧ (p.withMark false).Asked q ∧ k'.range = k.range ∧
      ((∀ g, .guest g ∈ p.trackers → Guest.LeavesFlushed g) → k'.flushed = k.flushed) := by
  obtain ⟨hresult, hticket, hleft⟩ := commit_eq k p
  have hunstaged := unstaged_commit k hp
  rw [h] at hresult hticket hleft hunstaged
  obtain rfl : result = _ := hresult
  obtain rfl : k' = _ := hticket
  -- A cycle that was cut short has not failed, so the mark was given back.
  have hcleared : q = (p.runCycle k).2.2.clearMark := by
    rcases hleft with ⟨-, f, hfault⟩ | heq
    · rw [hfault] at hfailed
      cases hfailed
    · exact heq
  have hsteady : p.Steady q := by
    rw [hcleared]
    exact (steady_of_failed hfailed).trans steady_clearMark
  have hasked : (p.withMark false).Asked q := by
    obtain ⟨_, _, heq⟩ := (cycleEnd_runCycle k p).asked_of_failed hfailed
    rw [hcleared, heq]
    exact ⟨_, _, rfl⟩
  refine ⟨?_, hasked, ?_, fun hleaves => ?_⟩
  · exact {
      store := hsteady.store
      durable := hsteady.durable
      loaded := hsteady.loaded
      flushed := hasked.sameBase.flushed
      signals := hsteady.signals
      trackers := Member.forall₂_same_of_steady hsteady.trackers hp hunstaged
      unstaged := hunstaged }
  · exact ticket_of_failed (I := fun k₁ => k₁.range = k.range) (G := fun _ => True)
      (H := fun _ => True)
      (fun t fx k₁ _ hk => ⟨trivial, (Member.range_prepare t fx k₁).trans hk⟩)
      (fun t fx k₁ s _ hk => (Member.range_write t fx k₁ s).trans hk) hfailed
      (fun _ _ => trivial) rfl
  · exact ticket_of_failed (I := fun k₁ => k₁.flushed = k.flushed) (G := Member.LeavesFlushed)
      (H := Member.WritesUnmarked)
      (fun t fx k₁ ht hk =>
        (Member.flushed_prepare ht fx k₁).imp_right fun hsame => hsame.trans hk)
      (fun t fx k₁ s ht hk => (Member.flushed_write ht fx k₁ s).trans hk) hfailed
      (fun t ht g hg => hleaves g (hg ▸ ht)) rfl

omit [KeepsRange γ] [Answers γ] in
/-- After quiet moves behind a negotiation the pipeline is what it would be without the negotiation,
but for the mark, for what was reported, and for guests. -/
theorem between_of_schedule {committed : Round} {lookback : UInt64} {p₁ : Pipeline (Member γ)}
    {R : γ → γ → Prop} (hR : Guest.Bisimulation R) {between : List Move}
    (hschedule : p.schedule committed lookback = (.ok (some k), p₁))
    (hquiet : ∀ move ∈ between, move.Quiet)
    (hguests : between = [] ∨ List.Forall₂ (Member.GuestsRelated R) p.trackers p₁.trackers) :
    ∃ trackers effects,
      Move.runAll between p₁ =
        { (Move.runAll between p).withMark true with trackers, effects } ∧
      List.Forall₂ Member.Same (Move.runAll between p).trackers trackers ∧
      effects.signals = (Move.runAll between p).effects.signals := by
  have hsame := same_schedule (p := p) committed lookback
  have hsteady := steady_schedule (p := p) committed lookback
  obtain ⟨-, hasked⟩ := schedule_eq_some hschedule
  rw [hschedule] at hsame hsteady
  obtain ⟨_, _, rfl⟩ := hasked
  rcases hguests with rfl | hguests
  · exact ⟨_, _, rfl, hsame, hsteady.signals⟩
  -- The moves in between lead from pipelines that are alike to such pipelines again.
  have hmarked : (p.withMark true).Alike (Member.Alike R) _ :=
    ⟨_, _, rfl, Member.forall₂_alike hsame hguests, hsteady.signals.symm⟩
  have hbetween := alike_runAll hR between hmarked
  rw [Move.runAll_withMark hquiet] at hbetween
  obtain ⟨trackers, effects, heq, htrackers, hsignals⟩ := hbetween
  exact ⟨trackers, effects, heq, htrackers.imp fun _ _ => Member.Alike.same, hsignals.symm⟩

/-- If the ticket of a failed cycle was negotiated before, with quiet moves in between, the pipeline
is what these moves make of it without the negotiation, but for what was reported and for guests. -/
theorem alike_of_failed {committed : Round} {lookback : UInt64} {p₁ : Pipeline (Member γ)}
    {R : γ → γ → Prop} (hR : Guest.Bisimulation R) {between : List Move} (hp : p.Unstaged)
    (hschedule : p.schedule committed lookback = (.ok (some k), p₁))
    (hquiet : ∀ move ∈ between, move.Quiet)
    (h : (Move.runAll between p₁).commit k = (result, k', q)) (hfailed : Failed result)
    (hrefined : between = [] ∨ List.Forall₂ (Member.GuestsRelated R) p.trackers p₁.trackers)
    (hguests : List.Forall₂ (Member.GuestsRelated R) (Move.runAll between p).trackers
      q.trackers) :
    (Move.runAll between p).Alike (Member.Alike R) q := by
  have hfree : (Move.runAll between p).inFlight = false := by
    have hmark : p.withMark false = p := by
      rw [withMark, ← (schedule_eq_some hschedule).1]
    have hkept := congrArg inFlight (Move.runAll_withMark hquiet false p)
    rwa [hmark] at hkept
  have hp₁ : (Move.runAll between p₁).Unstaged := by
    have hsame := same_schedule (p := p) committed lookback
    rw [hschedule] at hsame
    exact unstaged_runAll between (hp.of_same hsame)
  obtain ⟨huntouched, hcleared, -⟩ := untouched_of_failed hp₁ h hfailed
  obtain ⟨trackers, effects, heq, hsame, hsignals⟩ :=
    between_of_schedule hR hschedule hquiet hrefined
  have htrackers := huntouched.trackers
  have hafter := huntouched.signals
  rw [heq] at hcleared htrackers hafter
  obtain ⟨_, _, rfl⟩ := hcleared
  -- The mark that the negotiation set is the one that the failed cycle gave back.
  refine ⟨_, _, ?_, Member.forall₂_alike (Member.forall₂_same_trans hsame htrackers) hguests,
    (hafter.trans hsignals).symm⟩
  rw [← hfree]
  rfl

end Pipeline

/-! ## A guest that spoils cycles -/

/-- A guest that fails in every cycle. One sort writes a row into the table of the tail, and a
durable round of its own, before it does; the other marks the ticket as written and objects. -/
inductive Spoiler where
  | writer
  | marker
  deriving DecidableEq

instance : Guest Spoiler where
  name _ := "spoiler"
  load _ _ _ g := (.ok (), g)
  newBlock _ _ g := (.ok (), g)
  need committed g := (.ok ⟨committed, 0⟩, g)
  refine _ _ range g := (.ok (some range), g)
  prepare := fun (g, k) =>
    match g with
    | .writer => (.ok (), g, k)
    | .marker =>
      (.error (.error (.cannotPrepare "spoiler" (.other "spoiled"))), g, { k with flushed := true })
  write := fun (g, k, s) =>
    (.error (.error (.cannotWrite "spoiler" (.other "spoiled"))), g, k,
      (s.put tailTable ⟨7⟩ []).setRound ⟨7⟩)
  notice _ _ g := (.ok (), g)
  close g := (.ok (), g)

instance : KeepsRange Spoiler where
  range_prepare g _ := by cases g <;> rfl
  range_write _ _ _ := rfl

instance : Answers Spoiler where
  notice_ok _ _ _ := rfl
  prepare_ne_fault g _ _ := by cases g <;> simp [Guest.prepare]
  write_ne_fault _ _ _ _ := by simp [Guest.write]

/-- The trackers of the library and a spoiler, which is asked last. -/
def spoiledTrackers (g : Spoiler) : List (Member Spoiler) :=
  [.memory {}, .tail (.keeping 1), .durable {}, .guest g]

/-- A pipeline over a spoiler, not loaded yet. -/
def spoiled (g : Spoiler) : Pipeline (Member Spoiler) :=
  { trackers := spoiledTrackers g, config := {}, store := .empty }

/-- A load, two blocks, and somebody who waits for the first one to be durable. -/
def spoiledMoves : List Move :=
  [.operate (.load { latest := .zero, block := fun _ => none }),
    .operate (.newBlock ⟨⟨⟨1⟩, .zero, 0⟩, []⟩ (.empty ⟨1⟩)),
    .operate (.newBlock ⟨⟨⟨2⟩, .zero, 0⟩, []⟩ (.empty ⟨2⟩)), .wait 2 ⟨1⟩]

/-- The block of round 3, which comes in between. -/
def spoiledBetween : List Move := [.operate (.newBlock ⟨⟨⟨3⟩, .zero, 0⟩, []⟩ (.empty ⟨3⟩))]

end CommitPipeline
