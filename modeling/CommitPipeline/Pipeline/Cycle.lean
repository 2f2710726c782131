import CommitPipeline.Pipeline

/-!
# Commit cycles

A cycle makes the range of a ticket durable: every tracker prepares, every tracker writes into
one transaction, and once that is committed every tracker is told. A cycle that builds on another
durable round than the present one is skipped, and a cycle that fails leaves the store alone.

The module introduces:

* `Outcome` — how a cycle that did not fail ended;
* `prepareAll`, `writeAll`, `settleLanded` — the phases of a cycle;
* `runCycle` — a whole cycle;
* `commit` — a cycle run by the holder of a ticket, who gives the mark back.
-/

namespace CommitPipeline

/-- How a cycle that did not fail ended. -/
inductive Outcome where
  /-- The range is durable up to a round. -/
  | landed (newBase : Round)
  /-- The cycle was skipped because it built on another durable round. -/
  | outOfOrder
  deriving DecidableEq, Repr

namespace Pipeline

variable {τ : Type} [Tracker τ]

/-- Asks all trackers in order to prepare; each may alter the ticket. -/
def prepareAll (k : Ticket) (p : Pipeline τ) : Except Stop Unit × Ticket × Pipeline τ :=
  let (result, trackers, effects, k) := sweep Tracker.prepare p.trackers (p.effects, k)
  (result, k, { p with trackers, effects })

/-- What the trackers write, in order, and the new durable round behind it, on a working copy of
the store. -/
def writeAll (newBase : Round) (trackers : List τ) (effects : Effects) (k : Ticket)
    (working : Store) : Except Stop Unit × (List τ × Effects × Ticket) × Store :=
  let (result, trackers, effects, k, working) :=
    sweep Tracker.write trackers (effects, k, working)
  match result with
  | .error stop => (.error stop, (trackers, effects, k), working)
  | .ok () => (.ok (), (trackers, effects, k), working.setRound newBase)

/-- The transaction of a cycle: the store takes over what the trackers wrote if all of them did. -/
def transaction (newBase : Round) (k : Ticket) (p : Pipeline τ) :
    Except Stop Unit × Ticket × Pipeline τ :=
  -- Trackers and ticket keep what happened to them; only the store goes back.
  let (result, (trackers, effects, k), store) :=
    p.store.transact (writeAll newBase p.trackers p.effects k)
  (result, k, { p with trackers, effects, store })

/-- Tells the trackers of an error, which then is the answer; a tracker that is cut short in
hearing it gives the fault instead. -/
def failWith (n : Notice) (e : PipelineError) (k : Ticket) (p : Pipeline τ) :
    Except Stop Outcome × Ticket × Pipeline τ :=
  match p.tell n k with
  | (.error f, p) => (.error (.fault f), k, p)
  | (.ok (), p) => (.error (.error e), k, p)

/-- After the transaction: the pipeline takes over the new durable round, then the trackers are
told under the lock and after it. -/
def settleLanded (newBase : Round) (k : Ticket) (p : Pipeline τ) :
    Except Stop Outcome × Ticket × Pipeline τ :=
  let k := { k with flushed := true }
  -- The pipeline moves on before anybody is told, so that a fault on the way leaves it where the
  -- store is.
  match { p with durable := newBase, flushed := true }.tell .landed k with
  | (.error f, p) => (.error (.fault f), k, p)
  | (.ok (), p) =>
    match p.tell .released k with
    | (.error f, p) => (.error (.fault f), k, p)
    | (.ok (), p) => (.ok (.landed newBase), k, p.log (.landed newBase k.committed))

/-- The write phase of a cycle and what follows it. -/
def writePhase (k : Ticket) (p : Pipeline τ) : Except Stop Outcome × Ticket × Pipeline τ :=
  match k.newBase with
  | .error f => (.error (.fault f), k, p)
  | .ok newBase =>
    -- The new durable round is settled here, whatever the trackers do to the ticket from now on.
    match p.transaction newBase k with
    | (.error (.fault f), k, p) => (.error (.fault f), k, p)
    | (.error (.error e), k, p) => (p.log (.rolledBack e)).failWith .writeFailed e k
    | (.ok (), k, p) => p.settleLanded newBase k

/-- The prepare phase of a cycle and what follows it. -/
def preparePhase (k : Ticket) (p : Pipeline τ) : Except Stop Outcome × Ticket × Pipeline τ :=
  match p.prepareAll k with
  | (.error (.fault f), k, p) => (.error (.fault f), k, p)
  | (.error (.error e), k, p) => (p.log (.prepareFailed e)).failWith .prepareFailed e k
  | (.ok (), k, p) => p.writePhase k

/-- A cycle on another durable round than the present one: the trackers are told, no more. -/
def skipPhase (k : Ticket) (p : Pipeline τ) : Except Stop Outcome × Ticket × Pipeline τ :=
  match (p.log (.outOfOrder p.durable)).tell .outOfOrder k with
  | (.error f, p) => (.error (.fault f), k, p)
  | (.ok (), p) => (.ok .outOfOrder, k, p)

/-- A whole cycle. -/
def runCycle (k : Ticket) (p : Pipeline τ) : Except Stop Outcome × Ticket × Pipeline τ :=
  let p := p.log (.cycleEntered k.range.base k.range.length)
  if !p.loaded then (.error (.error .notLoaded), k, p)
  else if k.range.base ≠ p.durable then p.skipPhase k
  else p.preparePhase k

/-- A cycle run by the holder of a ticket. The mark is given back unless the cycle was cut
short. -/
def commit (k : Ticket) (p : Pipeline τ) : Except Stop Outcome × Ticket × Pipeline τ :=
  match p.runCycle k with
  | (.error (.fault f), k, p) => (.error (.fault f), k, p)
  | (result, k, p) => (result, k, p.clearMark)

end Pipeline

end CommitPipeline
