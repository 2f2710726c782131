import CommitPipeline.Scenario.Answer
import CommitPipeline.Scenario.Bench

/-!
# Questions to one tracker

The pipeline asks its trackers in turn. A scenario can also put a question to one of them alone,
past the pipeline: the first tracker that is meant answers it, and what it leaves behind is kept.

The module introduces:

* `Target` — which tracker is meant; `Question` — what it is asked;
* `Bench.askOne` — a question that involves no ticket and no store;
* `Bench.ask` — any question, and its answer.
-/

namespace CommitPipeline

/-- A tracker of a bench. -/
inductive Target where
  | memory
  | durable
  | tail
  | scripted (name : String)
  deriving DecidableEq, Repr

/-- Whether a tracker is meant. -/
def Target.fits : Target → Party → Bool
  | memory, .memory _ => true
  | durable, .durable _ => true
  | tail, .tail _ => true
  | scripted name, .guest g => g.name = name
  | _, _ => false

/-- A question put to one tracker directly. -/
inductive Question where
  | name
  | load (durable : Round)
  | newBlock (block : Block)
  | need (committed : Round)
  | refine (committed durable : Round) (range : CommitRange)
  | prepare (ticket : String)
  /-- Writes in a transaction of its own, rolled back in the end if asked for. -/
  | write (ticket : String) (rollBack : Bool)
  | notice (notice : Notice) (ticket : String)
  | close

namespace Bench

/-- Puts a question to the first tracker that fits. -/
def onFirst {κ α : Type} (fits : Party → Bool) (f : Party × κ → α × Party × κ) :
    List Party → κ → Option (α × List Party × κ)
  | [], _ => none
  | t :: rest, context =>
    if fits t then
      let (a, t, context) := f (t, context)
      some (a, t :: rest, context)
    else
      (onFirst fits f rest context).map fun (a, rest, context) => (a, t :: rest, context)

/-- Puts a question to one tracker of the pipeline, if it is there. -/
def askOne {α : Type} (b : Bench) (target : Target)
    (f : Party × Effects → α × Party × Effects) : Option α × Bench :=
  match b.live with
  | none => (none, b)
  | some p =>
    match onFirst target.fits f p.trackers p.effects with
    | none => (none, b)
    | some (a, trackers, effects) => (some a, { b with live := some { p with trackers, effects } })

/-- The answer to a step, `unknown` if there is none. -/
def answered (result : Option Answer × Bench) : Answer × Bench :=
  (result.1.getD .unknown, result.2)

/-- Works on a ticket kept by name, and keeps what is left of it. -/
def withTicket (b : Bench) (name : String) (f : Ticket → Bench → Answer × Ticket × Bench) :
    Answer × Bench :=
  match b.tickets.get? name with
  | none => (.unknown, b)
  | some k =>
    let (answer, k, b) := f k b
    (answer, { b with tickets := b.tickets.keep name k })

/-- Lets one tracker prepare a ticket. -/
def askPrepare (b : Bench) (target : Target) (ticket : String) : Answer × Bench :=
  b.withTicket ticket fun k b =>
    match b.live with
    | none => (.unknown, k, b)
    | some p =>
      match onFirst target.fits Tracker.prepare p.trackers (p.effects, k) with
      | none => (.unknown, k, b)
      | some (result, trackers, effects, k) =>
        (.ofResult (fun _ => .verdict .ok) result, k,
          { b with live := some { p with trackers, effects } })

/-- Lets one tracker write a ticket in a transaction of its own. -/
def askWrite (b : Bench) (target : Target) (ticket : String) (rollBack : Bool) : Answer × Bench :=
  b.withTicket ticket fun k b =>
    match b.live with
    | none => (.unknown, k, b)
    | some p =>
      match onFirst target.fits Tracker.write p.trackers (p.effects, k, p.store) with
      | none => (.unknown, k, b)
      | some (result, trackers, effects, k, working) =>
        -- The store alone is rolled back; tracker and ticket stay as they are.
        let store := match result with
          | .ok () => if rollBack then p.store else working
          | .error _ => p.store
        (.ofResult (fun _ => .verdict .ok) result, k,
          { b with live := some { p with trackers, effects, store } })

/-- Puts a question to one tracker. -/
def ask (b : Bench) (target : Target) : Question → Answer × Bench
  | .name => answered (b.askOne target fun (t, fx) => (.text (Tracker.name t), t, fx))
  | .load durable =>
    let store := (b.live.map Pipeline.store).getD .empty
    answered (b.askOne target fun state =>
      let (result, state) := Tracker.load b.ledger.view store durable state
      (.ofResult (fun _ => .verdict .ok) result, state))
  | .newBlock block =>
    answered (b.askOne target fun state =>
      let (result, state) := Tracker.newBlock block (.empty block.round) state
      (.ofOutcome (fun _ => .nothing) result, state))
  | .need committed =>
    answered (b.askOne target fun state =>
      let (result, state) := Tracker.need committed state
      (.ofOutcome .need result, state))
  | .refine committed durable range =>
    answered (b.askOne target fun state =>
      let (result, state) := Tracker.refine committed durable range state
      (.ofOutcome (.option .range) result, state))
  | .prepare ticket => b.askPrepare target ticket
  | .write ticket rollBack => b.askWrite target ticket rollBack
  | .notice n ticket =>
    match b.tickets.get? ticket with
    | none => (.unknown, b)
    | some k =>
      answered (b.askOne target fun state =>
        let (result, state) := Tracker.notice n k state
        (.ofOutcome (fun _ => .nothing) result, state))
  | .close =>
    answered (b.askOne target fun state =>
      let (result, state) := Tracker.close state
      (.ofOutcome (fun _ => .nothing) result, state))

end Bench

end CommitPipeline
