import CommitPipeline.Journal
import CommitPipeline.Ledger
import CommitPipeline.Signal
import CommitPipeline.Store

/-!
# Trackers

A tracker follows the ledger block by block and takes part in the cycles that make rounds
durable. A cycle asks every tracker in turn; `sweep` is that turn.

The module introduces:

* `Effects` — what trackers act on besides their own state;
* `Tracker` — what the pipeline asks of a tracker;
* `Guest` — the same for a tracker that has no part in the signals, and whose calls are noted;
* `sweep` — one question put to the trackers in order, up to the first that stops.
-/

namespace CommitPipeline

/-- What trackers act on besides their own state. -/
structure Effects where
  /-- The signals that waiters wait on. -/
  signals : SignalBoard := {}
  /-- What was reported. -/
  journal : Journal := []
  deriving Inhabited

namespace Effects

/-- Reports a line of the log. -/
def log (fx : Effects) (e : Event) : Effects := { fx with journal := fx.journal ++ [.event e] }

/-- Reports a line of the log if a condition holds. -/
def logIf (fx : Effects) (condition : Bool) (e : Event) : Effects :=
  if condition then fx.log e else fx

/-- Notes a call of a guest tracker. -/
def noteCall (fx : Effects) (tracker : String) (c : Call) : Effects :=
  { fx with journal := fx.journal ++ [.call tracker c] }

end Effects

/-- What a tracker needs once a round is committed. -/
structure Need where
  /-- The lowest round the tracker still needs from the ledger. -/
  floor : Round
  /-- How many rounds it wants to keep behind the durable round. -/
  lookback : UInt64
  deriving DecidableEq, Repr

/-- What the pipeline asks of a tracker. Each question is put to the tracker's state together
with the effects; both are kept however the tracker answers. -/
class Tracker (τ : Type) where
  /-- The name of the tracker. -/
  name : τ → String
  /-- Starts from the store, at its durable round. -/
  load : LedgerView → Store → Round → Act Stop (τ × Effects) Unit
  /-- Takes a block that was applied in memory. -/
  newBlock : Block → Delta → Act Fault (τ × Effects) Unit
  /-- Says what it needs once a round is committed. -/
  need : Round → Act Fault (τ × Effects) Need
  /-- Narrows a proposed range, or refuses any: given the committed and the durable round. -/
  refine : Round → Round → CommitRange → Act Fault (τ × Effects) (Option CommitRange)
  /-- Gets ready to write a range. -/
  prepare : Act Stop (τ × Effects × Ticket) Unit
  /-- Writes its part of a range into the working copy of a transaction. -/
  write : Act Stop (τ × Effects × Ticket × Store) Unit
  /-- Hears how a cycle went on. -/
  notice : Notice → Ticket → Act Fault (τ × Effects) Unit
  /-- Gives up what it holds. -/
  close : Act Fault (τ × Effects) Unit

/-- What the pipeline asks of a tracker from outside the library. It sees what it is handed and
keeps a state of its own. -/
class Guest (γ : Type) where
  /-- The name of the tracker. -/
  name : γ → String
  /-- Starts from the store, at its durable round. -/
  load : LedgerView → Store → Round → Act Stop γ Unit
  /-- Takes a block that was applied in memory. -/
  newBlock : Block → Delta → Act Fault γ Unit
  /-- Says what it needs once a round is committed. -/
  need : Round → Act Fault γ Need
  /-- Narrows a proposed range, or refuses any: given the committed and the durable round. -/
  refine : Round → Round → CommitRange → Act Fault γ (Option CommitRange)
  /-- Gets ready to write a range; it may alter the ticket. -/
  prepare : Act Stop (γ × Ticket) Unit
  /-- Writes into the working copy of a transaction; it may alter the ticket. -/
  write : Act Stop (γ × Ticket × Store) Unit
  /-- Hears how a cycle went on. -/
  notice : Notice → Ticket → Act Fault γ Unit
  /-- Gives up what it holds. -/
  close : Act Fault γ Unit

/-- Puts one question to trackers in order, up to the first that stops. The context `κ` goes from
one to the next; every tracker's state is kept. -/
def sweep {τ κ ε : Type} (ask : Act ε (τ × κ) Unit) (trackers : List τ) (context : κ) :
    Except ε Unit × List τ × κ :=
  match trackers with
  | [] => (.ok (), [], context)
  | t :: rest =>
    match ask (t, context) with
    | (.error e, t', context') => (.error e, t' :: rest, context')
    | (.ok (), t', context') =>
      let (result, rest', context'') := sweep ask rest context'
      (result, t' :: rest', context'')

end CommitPipeline
