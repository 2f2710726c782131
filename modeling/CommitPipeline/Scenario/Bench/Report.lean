import CommitPipeline.Scenario.Bench.Step

/-!
# What is seen of a bench

After each step the bench reports the answer, what can be seen of pipeline and bulletins, which
handles are ready, and what was reported during the step.
-/

namespace CommitPipeline

namespace Bench

/-- The latest round of a bulletin and how many rounds are waited for. -/
structure BoardView where
  /-- The latest announced round. -/
  latest : Round
  /-- How many rounds somebody waits for. -/
  pending : Nat

/-- What is seen of a bulletin. -/
def viewBoard (bulletin : Bulletin) : BoardView := ⟨bulletin.latest, bulletin.pendingCount⟩

/-- What is seen of a pipeline. -/
structure PipelineView where
  /-- The durable round as the pipeline knows it. -/
  durable : Round
  /-- The durable round of the database. -/
  stored : Round
  /-- The highest reported round. -/
  reported : Round
  /-- Whether a cycle is in flight. -/
  inFlight : Bool
  /-- Whether a transaction was written. -/
  flushed : Bool
  /-- The memory bulletin. -/
  memoryBoard : Option BoardView
  /-- The durable bulletin. -/
  durableBoard : Option BoardView
  /-- The runs of rounds that the tail has in memory. -/
  tailRuns : Option (List (Round × Round))

/-- What is seen of a pipeline. -/
def viewPipeline (p : Pipeline Party) : PipelineView where
  durable := p.durable
  stored := p.store.round
  reported := p.reported
  inFlight := p.inFlight
  flushed := p.flushed
  memoryBoard := p.trackers.findSome? fun
    | .memory bulletin => some (viewBoard bulletin)
    | _ => none
  durableBoard := p.trackers.findSome? fun
    | .durable bulletin => some (viewBoard bulletin)
    | _ => none
  tailRuns := (Simulator.tail? p).map fun t => t.entries.runs

/-- What is seen after a step. -/
structure Report where
  /-- The answer to the step. -/
  answer : Answer
  /-- The pipeline, if there is one. -/
  pipeline : Option PipelineView
  /-- The bulletin that belongs to no tracker. -/
  plain : Option BoardView
  /-- Which handles are ready. -/
  ready : Named Bool
  /-- What was reported during the step. -/
  journal : Journal

/-- What is seen of a bench, with the answer to the step that led there. -/
def report (answer : Answer) (b : Bench) : Report where
  answer
  pipeline := b.live.map viewPipeline
  plain := b.plain.map viewBoard
  ready := b.watches.readiness b.effects.signals
  journal := b.effects.journal

/-- The bench with an empty journal. -/
def clearJournal (b : Bench) : Bench := b.setEffects { b.effects with journal := [] }

/-- Runs a scenario. -/
def runAll (b : Bench) : List Step → List Report
  | [] => []
  | step :: rest =>
    let (answer, b) := b.run step
    report answer b :: runAll b.clearJournal rest

end Bench

end CommitPipeline
