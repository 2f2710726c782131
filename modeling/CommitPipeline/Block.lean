import CommitPipeline.Digest
import CommitPipeline.Round.Checked

/-!
# Blocks

A block has a header and transactions. Its digest is that of the header alone: round, digest of
the block before, and time stamp, each in a fixed width, so that the digest of a block fixes the
header of every block before it in the chain.
-/

namespace CommitPipeline

/-- The header of a block. -/
structure Header where
  /-- The round of the block. -/
  round : Round
  /-- The digest of the block before it. -/
  branch : Digest
  /-- Seconds since the epoch. -/
  timestamp : UInt64
  deriving DecidableEq

/-- A block. -/
structure Block where
  /-- The header. -/
  header : Header
  /-- The payloads of the transactions. -/
  txns : List Bytes
  deriving DecidableEq

/-- What a block changes in the state of the ledger. -/
structure Delta where
  /-- The round of the block. -/
  round : Round
  /-- Keys with their new value, `none` for a key that is removed. -/
  writes : List (Bytes × Option Bytes)
  deriving DecidableEq

/-- The bytes that a header's digest is taken of. -/
def Header.preimage (h : Header) : Bytes :=
  BigEndian.ofWord h.round.val ++ h.branch.bytes ++ BigEndian.ofWord h.timestamp

/-- The digest of a header. -/
def Header.digest (h : Header) : Digest := Digest.of h.preimage

/-- The header of a place in a chain: its round is so many rounds after the first one, and its time
stamp as many steps. A round or a time that leaves the word is a fault. -/
def Header.ofPlace (start : Round) (timestamp step : UInt64) (branch : Digest) (place : UInt64) :
    Except Fault Header := do
  let round ← start.plus place
  let passed ← Word.mul place step
  return { round, branch, timestamp := ← Word.add timestamp passed }

/-- The digests of the headers from a place in a chain on, each linked to the one before. -/
def Header.chainFrom (start : Round) (timestamp step : UInt64) (branch : Digest)
    (place : UInt64) : (count : Nat) → Except Fault (List Digest)
  | 0 => .ok []
  | count + 1 => do
    let header ← ofPlace start timestamp step branch place
    let rest ← chainFrom start timestamp step header.digest (place + 1) count
    return header.digest :: rest

/-- The digests of a number of headers, each linked to the one before: the first has a given round,
time stamp and branch, and each further one the next round and a time stamp `step` later. -/
def Header.chain (start : Round) (timestamp step : UInt64) (branch : Digest) (count : Nat) :
    Except Fault (List Digest) := chainFrom start timestamp step branch 0 count

namespace Block

/-- The round of a block. -/
def round (b : Block) : Round := b.header.round

/-- The digest of a block. -/
def digest (b : Block) : Digest := b.header.digest

end Block

/-- The change of a block that changes nothing. -/
def Delta.empty (round : Round) : Delta := ⟨round, []⟩

/-- Two words and a digest are hashed of every header. -/
@[simp]
theorem Header.length_preimage (h : Header) : h.preimage.length = 48 := by
  simp [preimage, h.branch.length_bytes]

end CommitPipeline
