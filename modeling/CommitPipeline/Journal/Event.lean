import CommitPipeline.CommitRange
import CommitPipeline.Error
import CommitPipeline.Text.Quoted

/-!
# Lines of the log

An `Event` is a line of the log. Its level says how much it matters, its source which part of the
program it comes from, its title what happened, and its fields to what.
-/

namespace CommitPipeline

/-- How much a line of the log matters, from the least to the most. -/
inductive Level where
  | trace
  | debug
  | info
  | warn
  | error
  deriving DecidableEq, Repr

namespace Level

/-- The position of a level in the order of importance. -/
def rank : Level → Nat
  | trace => 0
  | debug => 1
  | info => 2
  | warn => 3
  | error => 4

/-- The name of a level. -/
def text : Level → String
  | trace => "TRACE"
  | debug => "DEBUG"
  | info => "INFO"
  | warn => "WARN"
  | error => "ERROR"

end Level

/-- The part of the program a line of the log comes from. -/
inductive Source where
  | pipeline
  | worker
  | bulletin
  | tail
  | simulator
  deriving DecidableEq, Repr

/-- Why a ticket could not be queued. -/
inductive QueueRefusal where
  /-- The queue holds as many tickets as it can. -/
  | full
  /-- The end that takes tickets out is gone. -/
  | closed
  deriving DecidableEq, Repr

/-- The text of a refusal. -/
def QueueRefusal.message : QueueRefusal → String
  | full => "no available capacity"
  | closed => "channel closed"

/-- Why staged rows of the block tail are dropped. -/
inductive DropReason where
  | prepareFailed
  | rolledBack
  deriving DecidableEq, Repr

/-- The text of a reason. -/
def DropReason.message : DropReason → String
  | prepareFailed => "prepare failed"
  | rolledBack => "commit rolled back"

/-- A line of the log. -/
inductive Event where
  /-- A bulletin let the waiters of `released` rounds go. -/
  | waitersReleased (round : Round) (released : Nat)
  /-- A bulletin started afresh and forgot the waiters of `orphaned` rounds. -/
  | waitersDropped (orphaned : Nat) (latest : Round)
  /-- The tail deleted rows behind its window. -/
  | rowsPruned (pruned : Nat)
  /-- The tail dropped rows that were staged for a cycle that did not land. -/
  | stagedDropped (rows : Nat) (why : DropReason)
  /-- The ledger does not hold a block that is to be replayed. -/
  | blockMissing (round : Round)
  /-- The trackers are loaded. -/
  | loaded (durable latest : Round) (replayed : Nat)
  /-- A ticket could not be queued. -/
  | queueRefused (round : Round) (refusal : QueueRefusal)
  /-- A negotiation found a cycle in flight. -/
  | alreadyInFlight (round : Round)
  /-- A tracker refused a range. -/
  | vetoed (tracker : String)
  /-- A negotiation ended with a range. -/
  | scheduled (base newBase : Round) (lookback : UInt64)
  /-- A cycle begins. -/
  | cycleEntered (base : Round) (length : UInt64)
  /-- A cycle built on another durable round than the present one. -/
  | outOfOrder (durable : Round)
  /-- A tracker objected before anything was written. -/
  | prepareFailed (error : PipelineError)
  /-- The transaction of a cycle failed. -/
  | rolledBack (error : PipelineError)
  /-- A cycle landed. -/
  | landed (newBase committed : Round)
  /-- A higher round was reported while a cycle ran. -/
  | followUp (handled reported : Round)
  /-- The trackers are closed. -/
  | closed
  /-- The worker narrows a range a tracker objected to. -/
  | narrowed (tracker : String) (objection : Objection) (attempt : Nat) (length : UInt64)
  /-- The worker finished a cycle that landed. -/
  | cycleDone (newBase : Round)
  /-- The worker finished a cycle that was out of order. -/
  | cycleSkipped
  /-- The worker gives a cycle up. -/
  | cycleAbandoned (error : PipelineError)
  /-- A cycle was cut short under the worker. -/
  | cycleFaulted
  /-- The worker stops. -/
  | workerStopped
  /-- The simulator starts. -/
  | simulationStarted (start finish : Round)
  /-- The simulator saw a round durable in time. -/
  | roundReleased (round : Round) (inMemoryMs durableMs : Nat)
  /-- The simulator did not see a round durable in time. -/
  | roundNotDurable (round : Round) (inMemoryMs : Nat) (durable : Round)
  /-- The summary of the durable round, by the first bytes of its digest. -/
  | tailHead (round : Round) (digestHead : String)
  /-- The simulator is at its end. -/
  | simulationFinished (durable : Round)
  deriving DecidableEq, Repr

namespace Event

/-- How much a line matters. -/
def level : Event → Level
  | waitersReleased .. | rowsPruned .. | stagedDropped .. | alreadyInFlight .. | vetoed ..
  | scheduled .. | followUp .. | closed | narrowed .. | cycleDone .. | cycleSkipped
  | workerStopped => .debug
  | loaded .. | cycleEntered .. | landed .. | simulationStarted .. | roundReleased ..
  | roundNotDurable .. | tailHead .. | simulationFinished .. => .info
  | waitersDropped .. | blockMissing .. | queueRefused .. | outOfOrder .. | prepareFailed ..
  | cycleAbandoned .. => .warn
  | rolledBack .. | cycleFaulted => .error

/-- Where a line comes from. -/
def source : Event → Source
  | waitersReleased .. | waitersDropped .. => .bulletin
  | rowsPruned .. | stagedDropped .. => .tail
  | blockMissing .. | loaded .. | queueRefused .. | alreadyInFlight .. | vetoed .. | scheduled ..
  | cycleEntered .. | outOfOrder .. | prepareFailed .. | rolledBack .. | landed .. | followUp ..
  | closed => .pipeline
  | narrowed .. | cycleDone .. | cycleSkipped | cycleAbandoned .. | cycleFaulted
  | workerStopped => .worker
  | simulationStarted .. | roundReleased .. | roundNotDurable .. | tailHead ..
  | simulationFinished .. => .simulator

/-- Whether an event opens a span and is no message of its own. -/
def isSpan : Event → Bool
  | cycleEntered .. => true
  | _ => false

/-- What a line says happened. -/
def title : Event → String
  | waitersReleased .. => "Released round waiters"
  | waitersDropped .. => "Bulletin reload dropped outstanding waiters"
  | rowsPruned .. => "Pruned durable block tail rows"
  | stagedDropped .. => "Dropping staged block tail rows"
  | blockMissing .. => "Ledger is missing a block above the tracker database"
  | loaded .. => "Trackers loaded"
  | queueRefused .. => "Could not queue commit cycle"
  | alreadyInFlight .. => "Commit cycle already in flight"
  | vetoed .. => "Commit range vetoed"
  | scheduled .. => "Commit cycle scheduled"
  | cycleEntered .. => "run_cycle"
  | outOfOrder .. => "Out of order commit cycle skipped"
  | prepareFailed .. => "Prepare failed, nothing written"
  | rolledBack .. => "Commit transaction rolled back"
  | landed .. => "Commit cycle landed"
  | followUp .. => "Scheduling round reported mid-cycle"
  | closed => "Trackers closed"
  | narrowed .. => "Retrying with a narrower range"
  | cycleDone .. => "Cycle done"
  | cycleSkipped => "Cycle skipped as unordered"
  | cycleAbandoned .. => "Commit cycle abandoned"
  | cycleFaulted => "Commit cycle panicked"
  | workerStopped => "Commit syncer shutting down"
  | simulationStarted .. => "roundtrack-sim v0.1.0 starting"
  | roundReleased .. => "Round released"
  | roundNotDurable .. => "Round not durable yet"
  | tailHead .. => "Tail head"
  | simulationFinished .. => "Simulation finished"

/-- The fields of a line: what it gives values for, with the values as they are written. -/
def fields : Event → List (String × String)
  | waitersReleased round released => [("round", round.text), ("released", toString released)]
  | waitersDropped orphaned latest => [("orphaned", toString orphaned), ("latest", latest.text)]
  | rowsPruned pruned => [("pruned", toString pruned)]
  | stagedDropped rows why => [("rows", toString rows), ("why", Quoted.text why.message)]
  | blockMissing round => [("round", round.text)]
  | loaded durable latest replayed =>
    [("db_round", durable.text), ("latest", latest.text), ("replayed", toString replayed)]
  | queueRefused round refusal => [("round", round.text), ("error", refusal.message)]
  | alreadyInFlight round => [("round", round.text)]
  | vetoed tracker => [("tracker", Quoted.text tracker)]
  | scheduled base newBase lookback =>
    [("old_base", base.text), ("new_base", newBase.text), ("lookback", toString lookback)]
  | cycleEntered base length => [("old_base", base.text), ("offset", toString length)]
  | outOfOrder durable => [("db_round", durable.text)]
  | prepareFailed error => [("error", error.message)]
  | rolledBack error => [("error", error.message)]
  | landed newBase committed => [("new_base", newBase.text), ("committed", committed.text)]
  | followUp handled reported => [("handled", handled.text), ("reported", reported.text)]
  | narrowed tracker objection attempt length =>
    [("tracker", Quoted.text tracker), ("reason", objection.message),
      ("attempt", toString attempt), ("offset", toString length)]
  | cycleDone newBase => [("new_base", newBase.text)]
  | cycleAbandoned error => [("error", error.message)]
  | simulationStarted start finish => [("from", start.text), ("to", finish.text)]
  | roundReleased round inMemoryMs durableMs =>
    [("round", round.text), ("in_memory_ms", toString inMemoryMs),
      ("durable_ms", toString durableMs)]
  | roundNotDurable round inMemoryMs durable =>
    [("round", round.text), ("in_memory_ms", toString inMemoryMs), ("db_round", durable.text)]
  | tailHead round digestHead => [("round", round.text), ("hash", digestHead)]
  | simulationFinished durable => [("db_round", durable.text)]
  | closed | cycleSkipped | cycleFaulted | workerStopped => []

/-- A line of the log: its level, its title, and its fields. -/
def line (e : Event) : String :=
  (if e.isSpan then "SPAN" else e.level.text) ++ " " ++ e.title ++
    String.join (e.fields.map fun field => s!" {field.1}={field.2}")

end Event

end CommitPipeline
