import CommitPipeline.Ledger

/-!
# A ledger filled by hand

Blocks by round, put in and taken out one by one. The latest round is that of the highest block,
unless another one is claimed.
-/

namespace CommitPipeline

/-- Blocks by round. -/
structure HeldLedger where
  /-- The blocks. -/
  blocks : RoundTable Block := .empty
  /-- The latest round that is claimed instead of the highest block's. -/
  claimed : Option Round := none

namespace HeldLedger

/-- The latest round of the ledger. -/
def latest (l : HeldLedger) : Round :=
  l.claimed.getD (l.blocks.last?.getD .zero)

/-- The ledger as the pipeline sees it; its blocks change nothing. -/
def view (l : HeldLedger) : LedgerView where
  latest := l.latest
  block r := (l.blocks.get? r).map fun b => (b, .empty r)

/-- Puts a block in. -/
def put (l : HeldLedger) (b : Block) : HeldLedger := { l with blocks := l.blocks.insert b.round b }

/-- Takes the block of a round out. -/
def remove (l : HeldLedger) (r : Round) : HeldLedger := { l with blocks := l.blocks.erase r }

/-- The earliest time stamp of appended blocks. -/
def epoch : UInt64 := 1700000000

/-- The block that follows the highest one: linked to it, with its round for a transaction. -/
def following (l : HeldLedger) : Except Fault Block :=
  let (top, branch) := match l.blocks.rows.getLast? with
    | some (r, b) => (r, b.digest)
    | none => (.zero, .zero)
  match top.next with
  | .error f => .error f
  | .ok round =>
    (Word.add epoch round.val).map fun timestamp =>
      { header := { round, branch, timestamp }, txns := [BigEndian.ofWord round.val] }

end HeldLedger

end CommitPipeline
