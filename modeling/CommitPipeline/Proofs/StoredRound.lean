import CommitPipeline.Proofs.Frame

/-!
# The durable round is the stored one

A loaded pipeline takes the round that its store holds for the durable one, and it never takes any
other. Nothing is asked of the trackers for that: they may stop wherever they like, be cut short
between any two answers, write what they like into the working copy of a transaction, a durable
round included, and alter every ticket they are handed.

The module introduces:

* `Pipeline.InStep` — a loaded pipeline whose durable round is the stored one;
* `durable_eq_stored` — every run from a load on keeps to that.
-/

namespace CommitPipeline

namespace Pipeline

variable {τ : Type} {p q : Pipeline τ}

/-- The pipeline is loaded, and its durable round is the one that the store holds. -/
structure InStep (p : Pipeline τ) : Prop where
  loaded : p.loaded
  durable : p.durable = p.store.round

/-- What keeps store and durable round keeps them in step. -/
theorem InStep.of_sameBase (h : p.SameBase q) (hp : p.InStep) : q.InStep where
  loaded := by
    rw [h.loaded]
    exact hp.loaded
  durable := by
    rw [h.durable, h.store]
    exact hp.durable

/-- A cycle writes both or none. -/
theorem InStep.of_cycleEnd {result : Except Stop Outcome} (h : p.CycleEnd result q)
    (hp : p.InStep) : q.InStep := by
  cases h with
  | fruitless _ hasked => exact hp.of_sameBase hasked.sameBase
  | written store newBase hstored _ hasked =>
    -- Round and store were settled together, before any tracker was told.
    have hwritten : ({ p with store, durable := newBase, flushed := true } : Pipeline τ).InStep :=
      ⟨hp.loaded, hstored.symm⟩
    exact hwritten.of_sameBase hasked.sameBase

variable [Tracker τ]

/-- A load that fails leaves both as they were; any other takes the durable round from the store. -/
theorem inStep_load (ledger : LedgerView) (hp : p.InStep) : (p.load ledger).2.InStep := by
  obtain ⟨hstore, ⟨-, hdurable, hloaded⟩ | ⟨-, hdurable, hloaded⟩⟩ := load_frame ledger p
  · exact ⟨hloaded, by rw [hdurable, hstore]⟩
  · exact ⟨by rw [hloaded, hp.loaded], by rw [hdurable, hstore, hp.durable]⟩

end Pipeline

open Pipeline

variable {τ : Type} [Tracker τ] {p : Pipeline τ}

/-- No request brings the two out of step. -/
theorem Request.inStep_run (request : Request) (hp : p.InStep) : (request.run p).InStep := by
  cases request with
  | report round => exact hp.of_sameBase (sameBase_report round)
  | schedule committed lookback => exact hp.of_sameBase (sameBase_schedule committed lookback)
  | commit k =>
    have hcycle := hp.of_cycleEnd (cycleEnd_runCycle k p)
    -- A cycle that is cut short leaves the mark set, which makes no difference here.
    obtain ⟨-, -, ⟨heq, -⟩ | heq⟩ := commit_eq k p <;> rw [run, heq]
    · exact hcycle
    · exact hcycle.of_sameBase sameBase_clearMark
  | startWorker =>
    rw [run]
    split
    · next h => exact hp.of_sameBase (sameBase_startWorker h)
    · exact hp
  | takeTicket =>
    rw [run]
    split
    · next h => exact hp.of_sameBase (sameBase_takeTicket h)
    · exact hp
  | work k =>
    have hcycle := hp.of_cycleEnd (cycleEnd_runWithRetries k p)
    exact hcycle.of_sameBase (asked_log _).sameBase
  | complete handled =>
    have hcomplete := hp.of_sameBase (sameBase_complete handled)
    rw [run]
    rcases h : p.complete handled with ⟨f | _, q⟩ <;> rw [h] at hcomplete
    · -- A worker that is cut short drops its queue, which makes none either.
      exact hcomplete.of_sameBase sameBase_dropIntake
    · exact hcomplete
  | retire => exact hp.of_sameBase ((asked_log _).sameBase.trans sameBase_dropIntake)

namespace Operation

/-- No operation does, a load that fails included. -/
theorem inStep_run (operation : Operation) (hp : p.InStep) : (operation.run p).InStep := by
  cases operation with
  | load ledger => exact inStep_load ledger hp
  | newBlock block delta => exact hp.of_sameBase (asked_newBlock block delta).sameBase
  | request r => exact r.inStep_run hp
  | close => exact hp.of_sameBase (asked_close p).sameBase

/-- No run of operations does, by induction on the list. -/
theorem inStep_runAll (operations : List Operation) (hp : p.InStep) :
    (runAll operations p).InStep := by
  induction operations generalizing p with
  | nil => exact hp
  | cons operation rest ih => exact ih (operation.inStep_run hp)

end Operation

/-- From a load that ended well, let anything be done to a pipeline over trackers that do whatever
they like. Then it stays loaded, and whatever came of the operations, its durable round is the one
that the store holds. -/
theorem durable_eq_stored {start p : Pipeline τ} {ledger : LedgerView}
    (hload : start.load ledger = (.ok (), p)) (operations : List Operation) :
    (Operation.runAll operations p).loaded ∧
      (Operation.runAll operations p).durable = (Operation.runAll operations p).store.round := by
  have hinStep : p.InStep := by
    obtain ⟨hstore, hround⟩ := load_frame ledger start
    rw [hload] at hstore hround
    obtain ⟨-, hdurable, hloaded⟩ | ⟨hfailed, -⟩ := hround
    · exact ⟨hloaded, hdurable.trans (congrArg Store.round hstore).symm⟩
    · exact absurd rfl hfailed
  have hrun := Operation.inStep_runAll operations hinStep
  exact ⟨hrun.loaded, hrun.durable⟩

/-- A guest that writes a durable round of its own, makes the range of the ticket longer behind the
back of the pipeline, and is cut short in hearing that the cycle has landed. -/
inductive Meddler where
  | meddler

instance : Guest Meddler where
  name _ := "meddler"
  load _ _ _ g := (.ok (), g)
  newBlock _ _ g := (.ok (), g)
  need committed g := (.ok ⟨committed, 0⟩, g)
  refine _ _ range g := (.ok (some range), g)
  prepare := fun (g, k) => (.ok (), g, k)
  write := fun (g, k, s) =>
    let longer := { k.range with length := k.range.length + 7 }
    (.ok (), g, { k with range := longer }, s.setRound ⟨77⟩)
  notice n _ g := if n = .landed then (.error (.raised "meddled"), g) else (.ok (), g)
  close g := (.ok (), g)

/-- A pipeline over a meddler and a durable bulletin, not loaded yet. -/
def meddled : Pipeline (Member Meddler) :=
  { trackers := [.guest .meddler, .durable {}], config := {}, store := .empty }

/-- Two cycles over a meddler are cut short once they have landed, the second of them in the hands
of the worker. -/
theorem durable_eq_stored_meddled :
    let p := Operation.runAll
      [.request (.commit ⟨⟨.zero, 1, 0⟩, ⟨1⟩, false⟩),
        .request (.work ⟨⟨⟨1⟩, 2, 0⟩, ⟨3⟩, false⟩)]
      (meddled.load { latest := ⟨3⟩, block := fun _ => none }).2
    p.durable = p.store.round ∧ p.store.round = ⟨3⟩ :=
  ⟨(@durable_eq_stored _ _ meddled _ { latest := ⟨3⟩, block := fun _ => none }
    (Prod.ext rfl rfl) _).2, rfl⟩

end CommitPipeline
