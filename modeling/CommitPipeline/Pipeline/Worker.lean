import CommitPipeline.Pipeline.Cycle
import CommitPipeline.Pipeline.Negotiation

/-!
# The worker

The worker takes tickets out of the queue one by one and runs their cycles. A range that a tracker
objects to is halved and tried again. After each cycle the worker looks whether a higher round was
reported meanwhile and starts the next negotiation itself.

The module introduces:

* `startWorker`, `stopWorker` — the life of the worker;
* `takeTicket`, `runWithRetries`, `complete` — one turn, in three steps;
* `turn` — the three steps at once;
* `settle` — turns until the queue is empty or the worker is gone.
-/

namespace CommitPipeline.Pipeline

variable {τ : Type}

/-- Hands the receiving end of the queue to a worker; it is there only once. -/
def startWorker (p : Pipeline τ) : Except PipelineError (Pipeline τ) :=
  match p.intake with
  | .unclaimed => .ok { p with intake := .working }
  | .working | .gone => .error .workerTaken

/-- Gives the receiving end of the queue up, and the tickets in it. -/
def dropIntake (p : Pipeline τ) : Pipeline τ := { p with intake := .gone, queue := [] }

/-- Takes the oldest ticket out of the queue, if a worker is there to take it. -/
def takeTicket (p : Pipeline τ) : Option (Ticket × Pipeline τ) :=
  match p.intake, p.queue with
  | .working, k :: rest => some (k, { p with queue := rest })
  | _, _ => none

/-- An upper bound for the turns that are still to come: one for each ticket in the queue, and one
more for each that was negotiated for a lower round than the highest reported. -/
def workload (p : Pipeline τ) : Nat :=
  p.queue.length + p.queue.countP (fun k => k.committed < p.reported)

variable [Tracker τ]

/-- Runs the cycle of a ticket, and after an objection of a tracker once more with half the range,
as long as retries are left and the range has more than one round. -/
def retryHalving : (retries attempt : Nat) → Ticket → Pipeline τ →
    Except Stop Outcome × Ticket × Pipeline τ
  | 0, _, k, p => p.runCycle k
  | retries + 1, attempt, k, p =>
    match p.runCycle k with
    | (.error (.error (.cannotPrepare tracker objection)), k, p) =>
      if 1 < k.range.length then
        let k := { k with range := { k.range with length := k.range.length / 2 } }
        let p := p.log (.narrowed tracker objection (attempt + 1) k.range.length)
        retryHalving retries (attempt + 1) k p
      else (.error (.error (.cannotPrepare tracker objection)), k, p)
    | other => other

/-- Runs the cycle of a ticket with the retries of the settings. -/
def runWithRetries (k : Ticket) (p : Pipeline τ) : Except Stop Outcome × Ticket × Pipeline τ :=
  retryHalving p.config.prepareRetries.toNat 0 k p

/-- The line that the worker reports about a cycle. -/
def summaryEvent : Except Stop Outcome → Event
  | .ok (.landed newBase) => .cycleDone newBase
  | .ok .outOfOrder => .cycleSkipped
  | .error (.error e) => .cycleAbandoned e
  | .error (.fault _) => .cycleFaulted

/-- Gives the mark of a finished cycle back, then negotiates again if a higher round than the one
it was negotiated for was reported meanwhile. -/
def complete (handled : Round) (p : Pipeline τ) : Except Fault Unit × Pipeline τ :=
  let p := p.clearMark
  -- A report that met the mark was only remembered; it is caught up with here.
  if handled < p.reported then
    match (p.log (.followUp handled p.reported)).report p.reported with
    | (.error f, p) => (.error f, p)
    | (.ok _, p) => (.ok (), p)
  else (.ok (), p)

/-- What the worker does with a ticket it took. A fault of the cycle ends the cycle alone; a fault
of the negotiation that follows ends the worker. -/
def process (k : Ticket) (p : Pipeline τ) : Pipeline τ :=
  let (result, _, p) := p.runWithRetries k
  -- What was handled is the round of the ticket as it was taken, even if a part of it landed.
  match (p.log (summaryEvent result)).complete k.committed with
  | (.ok (), p) => p
  | (.error _, p) => p.dropIntake

/-- One turn of the worker. -/
def turn (p : Pipeline τ) : Pipeline τ :=
  match p.takeTicket with
  | none => p
  | some (k, p) => p.process k

/-- A number of turns. -/
def turns : Nat → Pipeline τ → Pipeline τ
  | 0, p => p
  | n + 1, p => turns n p.turn

/-- Lets the worker run until there is nothing left for it to do. -/
def settle (p : Pipeline τ) : Pipeline τ := p.turns p.workload

/-- Lets the worker come to an end: the queue is worked off, then the worker stops and the
receiving end of the queue is gone. -/
def stopWorker (p : Pipeline τ) : Pipeline τ :=
  let p := p.settle
  match p.intake with
  | .working => (p.log .workerStopped).dropIntake
  | .unclaimed | .gone => p

end CommitPipeline.Pipeline
