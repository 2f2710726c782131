import CommitPipeline.Scenario.Bench.Question
import CommitPipeline.Scenario.Data

/-!
# Steps on a bench

The steps of a scenario drive the pipeline of a bench from outside, as a ledger, a worker and
waiting readers would.

The module introduces:

* `Step` — the steps;
* `Bench.run` — what a step does, and its answer.
-/

namespace CommitPipeline

/-- A bulletin of a bench. -/
inductive Board where
  /-- That of the memory bulletin. -/
  | memory
  /-- That of the durable bulletin. -/
  | durable
  /-- One that belongs to no tracker. -/
  | plain
  deriving DecidableEq, Repr

/-- A step on a bench. -/
inductive Step where
  /-- Appends blocks to the ledger, and hands them to the pipeline or not. -/
  | append (count : Nat) (apply : Bool)
  /-- Puts a block into the ledger. -/
  | ledgerPut (block : Block)
  /-- Takes a block out of the ledger. -/
  | ledgerRemove (round : Round)
  /-- Lets the ledger claim a latest round, or no longer. -/
  | ledgerClaim (latest : Option Round)
  /-- Hands a block to the pipeline. -/
  | newBlock (block : Block)
  /-- Loads the pipeline. -/
  | load
  /-- Negotiates, and keeps the ticket. -/
  | schedule (round : Round) (lookback : UInt64) (keepAs : Option String)
  /-- Keeps a ticket written by hand. -/
  | ticket (ticket : Ticket) (keepAs : Option String)
  /-- Runs the cycle of a ticket. -/
  | commit (ticket : String)
  /-- Reports a round committed. -/
  | report (round : Round)
  /-- Gives a scripted tracker another script. -/
  | script (tracker : String) (script : Script)
  /-- Waits for a round. -/
  | wait (board : Board) (round : Round) (keepAs : Option String)
  /-- Waits for a round from a number of threads at once. -/
  | waitMany (board : Board) (round : Round) (threads : Nat)
  /-- Lets a bulletin start afresh. -/
  | restartBoard (board : Board) (latest : Round)
  /-- Makes a bulletin that belongs to no tracker. -/
  | plainBoard (latest : Round)
  /-- The summary of a round. -/
  | entry (round : Round)
  /-- The retention of the tail. -/
  | retain
  /-- The settings of the pipeline. -/
  | config
  /-- The names of the trackers. -/
  | trackers
  /-- A question to one tracker. -/
  | ask (target : Target) (question : Question)
  /-- Starts the worker. -/
  | startWorker
  /-- Lets the worker run until it has nothing left to do. -/
  | settle
  /-- Stops the worker. -/
  | stopWorker
  /-- Closes the trackers. -/
  | close
  /-- Drops the pipeline and builds another one. -/
  | restart (config : Option Config)
  /-- Drops the pipeline, runs the simulator, and builds another pipeline. -/
  | simulate (arguments : List String) (ownDirectory : Bool) (filter : Option String)
  /-- A step on handles and futures. -/
  | watch (step : WatchStep)
  /-- A step on the database. -/
  | data (step : DataStep)

namespace Bench

/-- Answers a step by what is done to the pipeline, and keeps the pipeline that is left. -/
def withLive (b : Bench) (f : Pipeline Party → Answer × Pipeline Party) : Answer × Bench :=
  match b.live with
  | none => (.unknown, b)
  | some p =>
    let (answer, p) := f p
    (answer, { b with live := some p })

/-- Answers a step by what is seen of the pipeline. -/
def seen (b : Bench) (f : Pipeline Party → Answer) : Answer × Bench :=
  (((b.live.map f).getD .unknown), b)

/-- Works on the bulletin of a tracker, if it has one. -/
def onTrackerBoard {α : Type} (f : Bulletin × Effects → α × Bulletin × Effects) :
    Party × Effects → Option α × Party × Effects
  | (.memory bulletin, fx) =>
    let (a, bulletin, fx) := f (bulletin, fx)
    (some a, .memory bulletin, fx)
  | (.durable bulletin, fx) =>
    let (a, bulletin, fx) := f (bulletin, fx)
    (some a, .durable bulletin, fx)
  | (other, fx) => (none, other, fx)

/-- Works on a bulletin, if it is there. -/
def onBoard {α : Type} (b : Bench) (board : Board)
    (f : Bulletin × Effects → α × Bulletin × Effects) : Option α × Bench :=
  match board with
  | .memory =>
    let (a, b) := b.askOne .memory (onTrackerBoard f)
    (a.join, b)
  | .durable =>
    let (a, b) := b.askOne .durable (onTrackerBoard f)
    (a.join, b)
  | .plain =>
    match b.plain with
    | none => (none, b)
    | some bulletin =>
      let (a, bulletin, fx) := f (bulletin, b.effects)
      (some a, { b with plain := some bulletin }.setEffects fx)

/-- Waits for a round, and gives the handle. -/
def waitOn (r : Round) : Bulletin × Effects → Handle × Bulletin × Effects := fun (bulletin, fx) =>
  let (handle, bulletin, signals) := bulletin.wait fx.signals r
  (handle, bulletin, { fx with signals })

/-- Waits for a round a number of times, and counts the handles that are ready. -/
def waitTimes (r : Round) : Nat → Bulletin × Effects → Nat × Bulletin × Effects
  | 0, (bulletin, fx) => (0, bulletin, fx)
  | n + 1, state =>
    let (handle, bulletin, fx) := waitOn r state
    let (others, bulletin, fx) := waitTimes r n (bulletin, fx)
    (others + (handle.isReady fx.signals).toNat, bulletin, fx)

/-- Appends blocks one by one up to the first fault, handing each to the pipeline if asked for. -/
def append (apply : Bool) : Nat → Bench → Answer × Bench
  | 0, b => (.round b.ledger.latest, b)
  | n + 1, b =>
    match b.ledger.following with
    | .error f => (.fault f, b)
    | .ok block =>
      let b := { b with ledger := b.ledger.put block }
      if apply then
        match b.live with
        | none => (.unknown, b)
        | some p =>
          match p.newBlock block (.empty block.round) with
          | (.error f, p) => (.fault f, { b with live := some p })
          | (.ok (), p) => append apply n { b with live := some p }
      else append apply n b

/-- Builds a pipeline in the place of a dropped one. -/
def rebuild (b : Bench) (config : Config) : Answer × Bench :=
  match b.build config with
  | .error s => (.stop s, b)
  | .ok b => (.verdict .opened, b)

/-- The directory of the bench's database, as the simulator is told. -/
def directory : String := "database"

/-- Runs the simulator over the database of a directory on the disk. -/
def simulateIn (b : Bench) (directory : String) (arguments : List String)
    (filter : Option String) : Simulator.Run × Bench :=
  match Disk.openDatabase directory b.disk with
  | (.error failure, disk) =>
    (Simulator.run arguments filter HeldLedger.epoch (.error failure), { b with disk })
  | (.ok (store, file), disk) =>
    let run := Simulator.run arguments filter HeldLedger.epoch (.ok store)
    (run, { b with disk := disk.closeDatabase file run.store })

/-- Runs the simulator while there is no pipeline: over the database of the bench if its command
line names that one, else over the one it names, or over an empty one if it names none. -/
def simulate (b : Bench) (arguments : List String) (ownDirectory : Bool)
    (filter : Option String) : Answer × Bench :=
  let own := ownDirectory && b.setup.onDisk
  let arguments := if own then arguments ++ ["--data-dir", directory] else arguments
  match (Simulator.database arguments).join with
  | none => (.simulation (Simulator.run arguments filter HeldLedger.epoch (.ok .empty)), b)
  | some named =>
    if own then
      let run := Simulator.run arguments filter HeldLedger.epoch (.ok b.kept)
      (.simulation run, { b with kept := run.store })
    else
      let (run, b) := b.simulateIn named arguments filter
      (.simulation run, b)

/-- Runs a step. -/
def run (step : Step) (b : Bench) : Answer × Bench :=
  match step with
  | .append count apply => b.append apply count
  | .ledgerPut block =>
    let b := { b with ledger := b.ledger.put block }
    (.round b.ledger.latest, b)
  | .ledgerRemove r =>
    (.flag (b.ledger.blocks.get? r).isSome, { b with ledger := b.ledger.remove r })
  | .ledgerClaim latest =>
    let b := { b with ledger.claimed := latest }
    (.round b.ledger.latest, b)
  | .newBlock block => b.withLive fun p =>
      let (result, p) := p.newBlock block (.empty block.round)
      (.ofOutcome (fun _ => .nothing) result, p)
  | .load => b.withLive fun p =>
      let (result, p) := p.load b.ledger.view
      (.ofResult (fun _ => .verdict .ok) result, p)
  | .schedule round lookback keepAs =>
    match b.live with
    | none => (.unknown, b)
    | some p =>
      let (result, p) := p.schedule round lookback
      let tickets := match result with
        | .ok (some k) => b.tickets.keepAs keepAs k
        | _ => b.tickets
      (.ofOutcome (.option .ticket) result, { b with live := some p, tickets })
  | .ticket k keepAs => (.ticket k, { b with tickets := b.tickets.keepAs keepAs k })
  | .commit ticket =>
    match b.live, b.tickets.get? ticket with
    | none, _ => (.unknown, b)
    | some _, none => (.verdict .noTicket, b)
    | some p, some k =>
      let (result, k, p) := p.commit k
      (.cycle result k, { b with live := some p, tickets := b.tickets.keep ticket k })
  | .report round => b.withLive fun p =>
      let (result, p) := p.report round
      (.ofOutcome .round result, p)
  | .script tracker script =>
    answered (b.askOne (.scripted tracker) fun
      | (.guest g, fx) => (.nothing, .guest { g with script }, fx)
      | (other, fx) => (.unknown, other, fx))
  | .wait board r keepAs =>
    match b.onBoard board (waitOn r) with
    | (none, b) => (.unknown, b)
    | (some handle, b) =>
      (.flag (handle.isReady b.effects.signals),
        { b with watches.handles := b.watches.handles.keepAs keepAs handle })
  | .waitMany board r threads =>
    answered (b.onBoard board fun state =>
      let (ready, state) := waitTimes r threads state
      (.number ready, state))
  | .restartBoard board latest =>
    answered (b.onBoard board fun (bulletin, fx) => (.nothing, bulletin.restart latest fx))
  | .plainBoard latest => (.nothing, { b with plain := some (.startingAt latest) })
  | .entry r => b.seen fun p =>
      match Simulator.tail? p with
      | none => .unknown
      | some t =>
        match t.entry p.store r with
        | .ok e => .option .summary e
        | .error e => .storeError e
  | .retain => b.seen fun p =>
      match Simulator.tail? p with
      | none => .unknown
      | some t => .number t.retain.toNat
  | .config => b.seen fun p => .config p.config
  | .trackers => b.seen fun p => .texts p.trackerNames
  | .ask target question => b.ask target question
  | .startWorker =>
    match b.live with
    | none => (.unknown, b)
    | some p =>
      match p.startWorker with
      | .error e => (.stop (.error e), b)
      | .ok p => (.verdict .started, { b with live := some p, hasWorker := true })
  | .settle => b.withLive fun p =>
      let p := p.settle
      (.verdict (if p.inFlight then .busy else .idle), p)
  | .stopWorker =>
    if b.hasWorker then (.verdict .stopped, b.stopWorker) else (.verdict .noWorker, b)
  | .close => b.withLive fun p =>
      let (result, p) := p.close
      (.ofOutcome (fun _ => .nothing) result, p)
  | .restart config => b.dropPipeline.rebuild (config.getD b.setup.config)
  | .simulate arguments ownDirectory filter =>
    let (answer, b) := b.dropPipeline.simulate arguments ownDirectory filter
    (answer, (b.rebuild b.setup.config).2)
  | .watch step =>
    let (answer, watches, signals) := b.watches.run step b.effects.signals
    (answer, { b with watches }.setSignals signals)
  | .data step => b.withLive fun p =>
      let (answer, store) := step.run p.store
      (answer, { p with store })

end Bench

end CommitPipeline
