import CommitPipeline.Config
import CommitPipeline.Tracker

/-!
# The pipeline

A pipeline drives its trackers over one store. Blocks come in as they are applied in memory; when
the ledger reports a round committed, the trackers negotiate a range of rounds, and a cycle makes
that range durable in one transaction.

The module introduces:

* `Pipeline` — trackers, settings, what the pipeline knows of the store, and the queue of
  tickets on their way to the worker;
* `Intake` — where the end of the queue is that takes tickets out;
* `Pipeline.open?` — a pipeline that is not loaded yet;
* `Pipeline.ask` — one question put to all trackers in order.
-/

namespace CommitPipeline

/-- Where the end of the queue is that takes tickets out. -/
inductive Intake where
  /-- Nobody has asked for it: tickets gather in the queue. -/
  | unclaimed
  /-- The worker holds it. -/
  | working
  /-- It is gone, and the queue with it. -/
  | gone
  deriving DecidableEq, Repr

/-- A pipeline over trackers of one type. -/
structure Pipeline (τ : Type) where
  /-- The trackers, in the order they are asked. -/
  trackers : List τ
  /-- The settings. -/
  config : Config
  /-- The committed content of the database. -/
  store : Store
  /-- What the trackers act on besides their own state. -/
  effects : Effects := {}
  /-- The durable round as the pipeline knows it. -/
  durable : Round := .zero
  /-- Whether the trackers were loaded. -/
  loaded : Bool := false
  /-- Whether a transaction was written since the pipeline was opened. -/
  flushed : Bool := false
  /-- The mark of a cycle that was negotiated and has not finished. -/
  inFlight : Bool := false
  /-- The highest round reported committed. -/
  reported : Round := .zero
  /-- The tickets on their way to the worker, oldest first. -/
  queue : List Ticket := []
  /-- Where the receiving end of the queue is. -/
  intake : Intake := .unclaimed

namespace Pipeline

variable {τ : Type}

/-- The most tickets that the queue can be made for. -/
def maxQueueCapacity : UInt64 := 2305843009213693951

/-- A pipeline over a store, not loaded yet; refused if the settings are. The queue is made at
once, which is a fault if it would be too long. -/
def open? (trackers : List τ) (config : Config) (store : Store) (effects : Effects) :
    Except Stop (Pipeline τ) :=
  match config.validate with
  | .error e => .error (.error e)
  | .ok () =>
    if maxQueueCapacity < config.queueCapacity then .error (.fault .tooManyTickets)
    else .ok { trackers, config, store, effects }

/-- Reports a line of the log. -/
def log (p : Pipeline τ) (e : Event) : Pipeline τ := { p with effects := p.effects.log e }

/-- Takes the mark of a cycle in flight away. -/
def clearMark (p : Pipeline τ) : Pipeline τ := { p with inFlight := false }

/-- Puts a question to all trackers in order, up to the first that stops. -/
def ask {ε : Type} (question : Act ε (τ × Effects) Unit) (p : Pipeline τ) :
    Except ε Unit × Pipeline τ :=
  let (result, trackers, effects) := sweep question p.trackers p.effects
  (result, { p with trackers, effects })

variable [Tracker τ]

/-- The names of the trackers. -/
def trackerNames (p : Pipeline τ) : List String := p.trackers.map Tracker.name

/-- Hands a block that was applied in memory to every tracker. -/
def newBlock (block : Block) (delta : Delta) (p : Pipeline τ) : Except Fault Unit × Pipeline τ :=
  p.ask (Tracker.newBlock block delta)

/-- Tells every tracker how a cycle went on. -/
def tell (n : Notice) (k : Ticket) (p : Pipeline τ) : Except Fault Unit × Pipeline τ :=
  p.ask (Tracker.notice n k)

/-- Closes every tracker. -/
def close (p : Pipeline τ) : Except Fault Unit × Pipeline τ :=
  match p.ask Tracker.close with
  | (.error f, p) => (.error f, p)
  | (.ok (), p) => (.ok (), p.log .closed)

end Pipeline

end CommitPipeline
