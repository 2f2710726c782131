import CommitPipeline.Block
import CommitPipeline.Round.Table

/-!
# Ledgers

What the pipeline asks of a ledger, and a ledger that makes its own blocks.

The module introduces:

* `LedgerView` — the latest round of a ledger, and its blocks by round;
* `Chain` — a ledger that starts above a base round and appends linked blocks;
* `Chain.append`, `Chain.appendMany` — a block more, or a number of them.
-/

namespace CommitPipeline

/-- A ledger as the pipeline sees it. -/
structure LedgerView where
  /-- The latest round the ledger has reached. -/
  latest : Round
  /-- The block of a round with what it changes, if the ledger holds it. -/
  block : Round → Option (Block × Delta)

/-- A ledger that appends blocks of its own making, each linked to the one before it. -/
structure Chain where
  /-- The round below the first block. -/
  base : Round
  /-- The blocks appended so far. -/
  blocks : RoundTable (Block × Delta) := .empty

namespace Chain

/-- The chain without blocks above a base round. -/
def startingAt (base : Round) : Chain := { base }

/-- The block appended last. -/
def head? (c : Chain) : Option (Block × Delta) :=
  c.blocks.rows.getLast?.map Prod.snd

/-- The round of the block appended last, the base if there is none. -/
def latest (c : Chain) : Round := (c.blocks.last?).getD c.base

/-- The digest the next block is linked to: that of the last block, zero for the first. -/
def tip (c : Chain) : Digest :=
  match c.head? with
  | some (block, _) => block.digest
  | none => .zero

/-- The key of the one write of an appended block. -/
def roundKey : Bytes := "round".toUTF8.toList

/-- The block of a round, linked to a digest, with the write that records its round. -/
def blockAt (round : Round) (branch : Digest) (timestamp : UInt64) : Block × Delta :=
  let bytes := BigEndian.ofWord round.val
  ({ header := { round, branch, timestamp }, txns := [bytes] },
    { round, writes := [(roundKey, some bytes)] })

/-- Appends the block of the next round; the chain stays as it is if there is no next round. -/
def append (c : Chain) (timestamp : UInt64) : Except Fault (Block × Delta) × Chain :=
  match c.latest.next with
  | .error f => (.error f, c)
  | .ok round =>
    let made := blockAt round c.tip timestamp
    (.ok made, { c with blocks := c.blocks.insert round made })

/-- Appends a number of blocks; gives what came of each attempt. -/
def appendMany (timestamp : UInt64) : Nat → Chain → List (Except Fault (Block × Delta)) × Chain
  | 0, c => ([], c)
  | n + 1, c =>
    let (made, c) := c.append timestamp
    let (rest, c) := appendMany timestamp n c
    (made :: rest, c)

/-- The chain as a ledger. -/
def view (c : Chain) : LedgerView := { latest := c.latest, block := c.blocks.get? }

end Chain

end CommitPipeline
