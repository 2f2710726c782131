import CommitPipeline.Config
import CommitPipeline.Pipeline.Cycle
import CommitPipeline.Scenario.Named
import CommitPipeline.Simulator
import CommitPipeline.Tracker.Tail

/-!
# Answers to the steps of a scenario

A scenario is a list of steps; each is answered by one value of `Answer`. A step that refers to
something that is not there is answered by `unknown`.
-/

namespace CommitPipeline

/-- Words that answer a step. -/
inductive Verdict where
  | ok
  | opened
  | started
  | stopped
  | noWorker
  | noTicket
  | idle
  | busy
  | ready
  | pending
  | done
  | committed
  | rolledBack
  | rolledBackAfterError
  | dropped
  | asked
  deriving DecidableEq, Repr

/-- The answer to a step. -/
inductive Answer where
  /-- There is nothing to say. -/
  | nothing
  /-- The step refers to something that is not there. -/
  | unknown
  | verdict (verdict : Verdict)
  | flag (value : Bool)
  | number (value : Nat)
  | text (value : String)
  | texts (values : List String)
  | bytes (value : Bytes)
  | rows (rows : List (Round × Bytes))
  | range (range : CommitRange)
  | ticket (ticket : Ticket)
  | need (need : Need)
  | summary (summary : Summary)
  | config (config : Config)
  /-- A cycle, with its ticket as the cycle left it. -/
  | cycle (result : Except Stop Outcome) (ticket : Ticket)
  | stop (stop : Stop)
  /-- An error of the store itself. -/
  | storeError (error : StoreError)
  /-- A transaction: the answers to its steps, and how it ended. -/
  | transaction (steps : List Answer) (finish : Answer)
  | simulation (run : Simulator.Run)

namespace Answer

/-- A round. -/
def round (r : Round) : Answer := .number r.toNat

/-- A fault. -/
def fault (f : Fault) : Answer := .stop (.fault f)

/-- The opening of a database that failed. -/
def openFailure : OpenFailure → Answer
  | .refused e => .storeError e
  | .fault f => fault f

/-- Something or nothing. -/
def option {α : Type} (f : α → Answer) (a : Option α) : Answer := (a.map f).getD .nothing

/-- A refused table name. -/
def refusedTable : TableRefusal → Answer
  | .unnamed => .fault .unnamedTable
  | .keyedByText name => .storeError (.keyedByText name)

/-- A result, or the stop in its place. -/
def ofResult {α : Type} (f : α → Answer) : Except Stop α → Answer
  | .ok a => f a
  | .error s => .stop s

/-- A result, or the fault in its place. -/
def ofOutcome {α : Type} (f : α → Answer) : Except Fault α → Answer
  | .ok a => f a
  | .error e => .fault e

end Answer

/-- What polling a future answers. -/
def Poll.verdict : Poll → Verdict
  | ready => .ready
  | pending => .pending
  | done => .done

end CommitPipeline
