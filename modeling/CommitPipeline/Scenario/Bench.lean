import CommitPipeline.Scenario.HeldLedger
import CommitPipeline.Scenario.Watching
import CommitPipeline.Store.Disk.Database

/-!
# The bench

A bench holds a pipeline with its ledger, and keeps tickets, handles and futures by name. Its
pipeline can be dropped and built again over the same database, ledger and signals.

The module introduces:

* `Setup` — from which trackers and settings a pipeline is built;
* `Bench` — the state of a scenario;
* `Bench.build`, `Bench.dropPipeline` — the life of the pipeline.
-/

namespace CommitPipeline

/-- The trackers of a bench. -/
abbrev Party := Member Scripted

/-- How a tracker is made. -/
inductive TrackerSpec where
  /-- A memory bulletin. -/
  | memory
  /-- A durable bulletin. -/
  | durable
  /-- A block tail, with the retention of the settings if none is given. -/
  | tail (retain : Option UInt64)
  /-- A scripted tracker. -/
  | scripted (name : String) (script : Script)

/-- Makes a tracker. -/
def TrackerSpec.make (config : Config) : TrackerSpec → Party
  | memory => .memory {}
  | durable => .durable {}
  | tail retain => .tail (.keeping (retain.getD config.tailRetain))
  | scripted name script => .guest { name, script }

/-- From what a bench builds its pipelines. -/
structure Setup where
  /-- Whether the database outlives the pipeline. -/
  onDisk : Bool
  /-- The settings, unless others are given. -/
  config : Config
  /-- The trackers in order. -/
  trackers : List TrackerSpec

/-- The state of a scenario. -/
structure Bench where
  /-- From what pipelines are built. -/
  setup : Setup
  /-- The pipeline, if there is one. -/
  live : Option (Pipeline Party) := none
  /-- Whether a worker was started and not stopped. -/
  hasWorker : Bool := false
  /-- The content of the database while there is no pipeline. -/
  kept : Store := .empty
  /-- The disk on which the simulator keeps databases of its own. -/
  disk : Disk := {}
  /-- What happened and which signals there are, while there is no pipeline. -/
  idle : Effects := {}
  /-- The ledger. -/
  ledger : HeldLedger := {}
  /-- The bulletin that belongs to no tracker. -/
  plain : Option Bulletin := none
  /-- Tickets by name. -/
  tickets : Named Ticket := []
  /-- Handles and futures by name. -/
  watches : Watches := {}

namespace Bench

/-- Signals and journal. -/
def effects (b : Bench) : Effects := (b.live.map Pipeline.effects).getD b.idle

/-- The bench with other signals and another journal. -/
def setEffects (b : Bench) (effects : Effects) : Bench :=
  match b.live with
  | some p => { b with live := some { p with effects } }
  | none => { b with idle := effects }

/-- The bench with other signals. -/
def setSignals (b : Bench) (signals : SignalBoard) : Bench :=
  b.setEffects { b.effects with signals }

/-- Builds a pipeline over what the database holds. -/
def build (b : Bench) (config : Config) : Except Stop Bench :=
  let trackers := b.setup.trackers.map (TrackerSpec.make config)
  (Pipeline.open? trackers config b.kept b.idle).map fun p => { b with live := some p }

/-- A bench with its first pipeline. -/
def open? (setup : Setup) : Except Stop Bench := build { setup } setup.config

/-- Stops the worker if there is one. -/
def stopWorker (b : Bench) : Bench :=
  if b.hasWorker then { b with live := b.live.map Pipeline.stopWorker, hasWorker := false } else b

/-- Drops the pipeline. Its database is kept if it is on the disk. -/
def dropPipeline (b : Bench) : Bench :=
  let b := b.stopWorker
  match b.live with
  | none => b
  | some p =>
    { b with live := none, idle := p.effects, kept := if b.setup.onDisk then p.store else .empty }

end Bench

end CommitPipeline
