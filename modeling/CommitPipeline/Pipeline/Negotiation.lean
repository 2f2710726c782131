import CommitPipeline.Pipeline

/-!
# Negotiating a range

When a round is reported committed, the pipeline proposes the rounds above the durable one, held
back by the lookback and cut to the length of a cycle. Every tracker in turn narrows the proposal
or refuses it. What is left travels as a ticket through the queue to the worker. While a ticket
is under way, the mark of a cycle in flight turns every further negotiation away.

The module introduces:

* `claimMark`, `propose`, `refineAll`, `conclude` — the steps of a negotiation;
* `schedule` — a whole negotiation;
* `enqueue` — puts a ticket into the queue;
* `report` — a round was reported committed.
-/

namespace CommitPipeline.Pipeline

variable {τ : Type}

/-- Sets the mark of a cycle in flight, unless it is set. -/
def claimMark (p : Pipeline τ) : Option (Pipeline τ) :=
  if p.inFlight then none else some { p with inFlight := true }

/-- The proposal for a committed round: from the durable round up to the committed one less the
lookback, at most as many rounds as a cycle takes. -/
def propose (p : Pipeline τ) (committed : Round) (lookback : UInt64) : CommitRange where
  base := p.durable
  length := min ((committed.back lookback).since p.durable) p.config.maxRounds
  lookback := lookback

/-- Why trackers do not come to a range. -/
inductive Refusal where
  /-- A tracker, given by its name, refused any range. -/
  | veto (tracker : String)
  /-- A tracker was cut short. -/
  | fault (fault : Fault)

/-- Remembers a reported round if it is the highest so far. -/
def remember (round : Round) (p : Pipeline τ) : Pipeline τ :=
  { p with reported := max p.reported round }

/-- Puts a ticket into the queue to the worker. -/
def enqueue (k : Ticket) (p : Pipeline τ) : Except QueueRefusal (Pipeline τ) :=
  match p.intake with
  | .gone => .error .closed
  | .unclaimed | .working =>
    if p.queue.length < p.config.queueCapacity.toNat then
      .ok { p with queue := p.queue ++ [k] }
    else .error .full

variable [Tracker τ]

/-- Asks one tracker to refine a range. -/
def refineOne (committed durable : Round) : Act Refusal (τ × Effects × CommitRange) Unit :=
  fun (t, fx, range) =>
    match Tracker.refine committed durable range (t, fx) with
    | (.error f, t, fx) => (.error (.fault f), t, fx, range)
    | (.ok none, t, fx) => (.error (.veto (Tracker.name t)), t, fx, range)
    | (.ok (some range), t, fx) => (.ok (), t, fx, range)

/-- Asks all trackers in order to refine a range. -/
def refineAll (committed : Round) (range : CommitRange) (p : Pipeline τ) :
    Except Refusal CommitRange × Pipeline τ :=
  let (result, trackers, effects, range) :=
    sweep (refineOne committed p.durable) p.trackers (p.effects, range)
  (result.map fun _ => range, { p with trackers, effects })

/-- Ends a negotiation by the range the trackers agreed on: an empty one gives the mark back, any
other becomes a ticket. A range that ends above the last round there is is a fault, and the mark
then stays. -/
def conclude (committed : Round) (range : CommitRange) (p : Pipeline τ) :
    Except Fault (Option Ticket) × Pipeline τ :=
  if range.isEmpty then (.ok none, p.clearMark)
  else
    match range.newBase with
    | .error f => (.error f, p)
    | .ok newBase =>
      (.ok (some { range, committed }), p.log (.scheduled range.base newBase range.lookback))

/-- Negotiates a range under the mark: a proposal without rounds and a veto give the mark back. -/
def negotiate (committed : Round) (lookback : UInt64) (p : Pipeline τ) :
    Except Fault (Option Ticket) × Pipeline τ :=
  let range := p.propose committed lookback
  -- Nothing to do: the trackers are not asked at all.
  if range.isEmpty then (.ok none, p.clearMark)
  else
    match p.refineAll committed range with
    -- A fault leaves the mark set.
    | (.error (.fault f), p) => (.error f, p)
    | (.error (.veto tracker), p) => (.ok none, (p.log (.vetoed tracker)).clearMark)
    | (.ok range, p) => p.conclude committed range

/-- A whole negotiation for a committed round. The mark stays set with a ticket, which its holder
has to run. -/
def schedule (committed : Round) (lookback : UInt64) (p : Pipeline τ) :
    Except Fault (Option Ticket) × Pipeline τ :=
  match p.claimMark with
  | none => (.ok none, p.log (.alreadyInFlight committed))
  | some p => p.negotiate committed lookback

/-- Asks one tracker what it needs, and keeps the lowest floor and the widest lookback. -/
def needOne (committed : Round) : Act Fault (τ × Effects × Need) Unit :=
  fun (t, fx, joint) =>
    match Tracker.need committed (t, fx) with
    | (.error f, t, fx) => (.error f, t, fx, joint)
    | (.ok need, t, fx) =>
      (.ok (), t, fx, ⟨min joint.floor need.floor, max joint.lookback need.lookback⟩)

/-- What all trackers together need once a round is committed: at least the round itself, and no
lookback if nobody asks for one. -/
def needAll (committed : Round) (p : Pipeline τ) : Except Fault Need × Pipeline τ :=
  let (result, trackers, effects, need) :=
    sweep (needOne committed) p.trackers (p.effects, (⟨committed, 0⟩ : Need))
  (result.map fun _ => need, { p with trackers, effects })

/-- Sends a ticket off to the worker. If the queue does not take it, the mark is given back. -/
def dispatch (k : Ticket) (p : Pipeline τ) : Pipeline τ :=
  match p.enqueue k with
  | .ok p => p
  | .error refusal => (p.log (.queueRefused k.committed refusal)).clearMark

/-- A round was reported committed. It is remembered, negotiated for, and a ticket is sent to the
worker if the trackers agree on a range. Gives the lowest round that any tracker still needs from
the ledger. -/
def report (round : Round) (p : Pipeline τ) : Except Fault Round × Pipeline τ :=
  -- Remembered first: a worker that ends a cycle finds the round even if it is turned away here.
  match (p.remember round).needAll round with
  | (.error f, p) => (.error f, p)
  | (.ok need, p) =>
    match p.schedule round need.lookback with
    | (.error f, p) => (.error f, p)
    | (.ok none, p) => (.ok need.floor, p)
    | (.ok (some k), p) => (.ok need.floor, p.dispatch k)

end CommitPipeline.Pipeline
