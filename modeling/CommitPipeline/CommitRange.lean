import CommitPipeline.Round.Checked

/-!
# Ranges of rounds that become durable together

A `CommitRange` is the rounds above a base up to `length` rounds further on. Its end is computed
when it is asked for, so a range may be written down whose end is no round. A `Ticket` is a range
on its way through one commit cycle.
-/

namespace CommitPipeline

/-- The rounds above `base`, `length` of them. -/
structure CommitRange where
  /-- The durable round the range builds on. -/
  base : Round
  /-- How many rounds the range covers. -/
  length : UInt64
  /-- How many rounds up to the new base are to stay readable in memory. -/
  lookback : UInt64
  deriving DecidableEq, Repr

namespace CommitRange

/-- The durable round once the range has landed. -/
def newBase (g : CommitRange) : Except Fault Round := g.base.plus g.length

/-- The first round of the range. -/
def oldest (g : CommitRange) : Except Fault Round := g.base.next

/-- The last round of the range. -/
def newest (g : CommitRange) : Except Fault Round := g.newBase

/-- Whether the range covers no round. -/
def isEmpty (g : CommitRange) : Bool := g.length = 0

/-- The lowest round that is to stay in memory after the range has landed. -/
def lookbackFloor (g : CommitRange) : Except Fault Round :=
  g.newBase.map (·.back g.lookback)

/-- Whether a round is in the range. The end is computed for a round above the base only. -/
def contains (g : CommitRange) (r : Round) : Except Fault Bool :=
  if g.base < r then g.newBase.map fun newest => r ≤ newest else .ok false

/-- The part of the range that lies at or below a round. -/
def clampNewest (g : CommitRange) (newest : Round) : CommitRange :=
  { g with length := min g.length (newest.since g.base) }

/-- A range in a line of a journal. -/
def text (g : CommitRange) : String := s!"{g.base}+{g.length}/{g.lookback}"

end CommitRange

/-- A range on its way through a commit cycle. -/
structure Ticket where
  /-- The range that is to become durable. -/
  range : CommitRange
  /-- The round the ledger had reported committed when the range was negotiated. -/
  committed : Round
  /-- Whether a transaction of the ticket has been written. -/
  flushed : Bool := false
  deriving DecidableEq, Repr

namespace Ticket

/-- The durable round once the ticket's range has landed. -/
def newBase (k : Ticket) : Except Fault Round := k.range.newBase

/-- A ticket in a line of a journal. -/
def text (k : Ticket) : String :=
  s!"{k.range.text} committed={k.committed} flushed={k.flushed}"

end Ticket

end CommitPipeline
