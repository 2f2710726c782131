import CommitPipeline.Tracker

/-!
# The block tail

The block tail keeps summaries of recent blocks: in memory those of every applied round from the
floor of its window on, in the store those from the floor up to the durable round.

The module introduces:

* `Summary` — digest, time stamp and transaction count of a block, with its row of 44 bytes;
* `Tail` — the summaries in memory and the rows staged for the running cycle;
* `Tail.windowFloor` — the lowest round kept once a round is durable;
* `Tail.stage`, `Tail.writeStaged`, `Tail.advance` — its part of a cycle, phase by phase.
-/

namespace CommitPipeline

/-- What the tail keeps of a block. -/
structure Summary where
  /-- The digest of the block. -/
  digest : Digest
  /-- The time stamp of the block. -/
  timestamp : UInt64
  /-- The number of transactions, the highest 32-bit word if there are more. -/
  txnCount : UInt32
  deriving DecidableEq, Inhabited

namespace Summary

/-- The number of bytes of a summary's row. -/
def encodedLength : Nat := 44

/-- The summary of a block. -/
def ofBlock (b : Block) : Summary where
  digest := b.digest
  timestamp := b.header.timestamp
  txnCount := UInt32.ofNat (min b.txns.length (UInt32.size - 1))

/-- The row of a summary: digest, time stamp, transaction count. -/
def encode (s : Summary) : Bytes :=
  s.digest.bytes ++ BigEndian.encode 8 s.timestamp.toNat ++ BigEndian.encode 4 s.txnCount.toNat

/-- Reads a row. -/
def decode (row : Bytes) : Except RowFlaw Summary :=
  if h : row.length = encodedLength then
    .ok {
      digest := ⟨row.take 32, by simp [h, encodedLength]⟩
      timestamp := UInt64.ofNat (BigEndian.decode ((row.drop 32).take 8))
      txnCount := UInt32.ofNat (BigEndian.decode (row.drop 40)) }
  else .error (.summaryLength row.length encodedLength)

/-- Reads rows given with their rounds, up to the first that is no summary. -/
def decodeRows : List (Round × Bytes) → Except RowFlaw (RoundTable Summary)
  | [] => .ok .empty
  | (r, row) :: rest =>
    match decode row with
    | .error flaw => .error flaw
    | .ok s => (decodeRows rest).map (·.insert r s)

end Summary

/-- The table that holds the rows of the tail. -/
def tailTable : TableName := ⟨"block_tail", by decide, by decide⟩

/-- Summaries of recent blocks. -/
structure Tail where
  /-- How many rounds up to the durable one are kept. -/
  retain : UInt64
  /-- At least the durable round itself is kept. -/
  retain_ne_zero : retain ≠ 0
  /-- The durable round as the tail knows it. -/
  durable : Round := .zero
  /-- The summaries in memory. -/
  entries : RoundTable Summary := .empty
  /-- The rows picked for the running cycle. -/
  staged : List (Round × Summary) := []
  deriving DecidableEq

namespace Tail

/-- The name under which the tail objects and fails. -/
def name : String := "block_tail"

/-- An empty tail that keeps a number of rounds, at least one. -/
def keeping (retain : UInt64) : Tail :=
  if h : retain = 0 then { retain := 1, retain_ne_zero := by decide }
  else { retain, retain_ne_zero := h }

/-- The lowest round kept once `base` is durable. -/
def windowFloor (t : Tail) (base : Round) : Except Fault Round :=
  base.next.map (·.back t.retain)

/-- Replaces the summaries in memory by the rows of the window that ends at the durable round. -/
def reload (t : Tail) (s : Store) (durable : Round) : Except Stop Tail :=
  match t.windowFloor durable with
  | .error f => .error (.fault f)
  | .ok floor =>
    match Summary.decodeRows (s.rowsBetween tailTable floor durable) with
    | .error flaw => .error (.error (.store (.corrupt flaw)))
    | .ok entries => .ok { t with durable, entries, staged := [] }

/-- Takes the summary of a block. -/
def add (t : Tail) (b : Block) : Tail :=
  { t with entries := t.entries.insert b.round (.ofBlock b) }

/-- What the tail needs once a round is committed. -/
def need (t : Tail) (committed : Round) : Except Fault Need :=
  (t.windowFloor committed).map fun floor => { floor, lookback := t.retain }

/-- Narrows a range to what the tail has seen and widens its lookback to what it keeps; without
any summary no range will do. -/
def refine (t : Tail) (range : CommitRange) : Option CommitRange :=
  t.entries.last?.map fun highest =>
    let range := range.clampNewest highest
    -- The lookback only widens; what others asked for is kept.
    { range with lookback := max range.lookback t.retain }

/-- The summaries of a number of consecutive rounds. The round after the last one is computed
too, so a range that ends at the last round there is ends in a fault. -/
def collect (entries : RoundTable Summary) :
    Nat → Round → Except Stop (List (Round × Summary))
  | 0, _ => .ok []
  | count + 1, r =>
    match entries.get? r with
    | none => .error (.error (.cannotPrepare name (.notHeld r)))
    | some s =>
      match r.next with
      | .error f => .error (.fault f)
      | .ok following => (collect entries count following).map ((r, s) :: ·)

/-- The most rows that can be picked: as many as fit into the highest signed 64-bit number of
bytes, a row with its round taking 56 of them. -/
def maxStaged : UInt64 := 164703072086692425

/-- Picks the rows of a range. -/
def stage (t : Tail) (range : CommitRange) : Except Stop Tail :=
  -- Room for the rows is made before anything else is looked at.
  if maxStaged < range.length then .error (.fault .tooManyRows)
  else
    -- Both ends come before the rows: above the last round even an empty range is a fault.
    match range.oldest, range.newBase with
    | .error f, _ => .error (.fault f)
    | .ok _, .error f => .error (.fault f)
    | .ok oldest, .ok _ =>
      (collect t.entries range.length.toNat oldest).map fun staged => { t with staged }

/-- Writes rows into a store. -/
def putRows (s : Store) (rows : List (Round × Summary)) : Store :=
  rows.foldl (fun s row => s.put tailTable row.1 row.2.encode) s

/-- Writes the picked rows and deletes those behind the window of the new durable round. Gives
the number of deleted rows. -/
def writeStaged (t : Tail) (range : CommitRange) : Act Stop Store Nat := fun s =>
  if t.staged.length ≠ range.length.toNat then
    (.error (.error (.cannotWrite name (.wrongCount t.staged.length range.length))), s)
  else
    let s := putRows s t.staged
    -- The window moves with the new durable round, so the rows just written may fall out of it.
    match range.newBase.bind t.windowFloor with
    | .error f => (.error (.fault f), s)
    | .ok floor =>
      let (pruned, s) := s.pruneBelow tailTable floor
      (.ok pruned, s)

/-- Moves the window behind a range that has landed. -/
def advance (t : Tail) (range : CommitRange) : Except Fault Tail :=
  match range.newBase with
  | .error f => .error f
  | .ok durable =>
    (t.windowFloor durable).map fun floor =>
      { t with durable, entries := t.entries.atLeast floor, staged := [] }

/-- Drops the picked rows. -/
def dropStaged (why : DropReason) (t : Tail) (fx : Effects) : Tail × Effects :=
  ({ t with staged := [] },
    fx.logIf (!t.staged.isEmpty) (.stagedDropped t.staged.length why))

/-- Forgets every summary. -/
def clear (t : Tail) : Tail := { t with entries := .empty, staged := [] }

/-- The summary of a round, from memory or else from the store. -/
def entry (t : Tail) (s : Store) (r : Round) : Except StoreError (Option Summary) :=
  match t.entries.get? r with
  | some e => .ok (some e)
  | none =>
    match s.get? tailTable r with
    | none => .ok none
    | some row =>
      match Summary.decode row with
      | .ok e => .ok (some e)
      | .error flaw => .error (.corrupt flaw)

end Tail

end CommitPipeline
