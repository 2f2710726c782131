import CommitPipeline.Pipeline

/-!
# Loading

A pipeline starts from its store: every tracker loads at the durable round, then the blocks that
the ledger holds beyond it are handed to the trackers once more, up to the first one missing.
-/

namespace CommitPipeline.Pipeline

variable {τ : Type} [Tracker τ]

/-- Hands the blocks of at most `count` consecutive rounds to the trackers, the first of them
given, up to the first block the ledger does not hold. Gives the number of blocks handed on. The
round after each block is computed, so the last round there is ends in a fault. -/
def replay (ledger : LedgerView) : Nat → Round → Pipeline τ → Except Fault Nat × Pipeline τ
  | 0, _, p => (.ok 0, p)
  | count + 1, r, p =>
    match ledger.block r with
    -- What lies behind a gap is not handed on: the trackers take rounds in order.
    | none => (.ok 0, p.log (.blockMissing r))
    | some (block, delta) =>
      match p.newBlock block delta with
      | (.error f, p) => (.error f, p)
      | (.ok (), p) =>
        match r.next with
        | .error f => (.error f, p)
        | .ok following =>
          match replay ledger count following p with
          | (.error f, p) => (.error f, p)
          | (.ok handed, p) => (.ok (handed + 1), p)

/-- Replays the blocks above the durable round. -/
def replayAbove (ledger : LedgerView) (durable : Round) (p : Pipeline τ) :
    Except Fault Nat × Pipeline τ :=
  match durable.next with
  | .error f => (.error f, p)
  | .ok first => p.replay ledger (ledger.latest.since durable).toNat first

/-- Loads every tracker at the durable round of the store, then replays the blocks above it. A
store ahead of the ledger is refused before any tracker is asked; the pipeline counts as loaded
once everything is done. -/
def load (ledger : LedgerView) (p : Pipeline τ) : Except Stop Unit × Pipeline τ :=
  let durable := p.store.round
  if ledger.latest < durable then
    (.error (.error (.storeAhead durable ledger.latest)), p)
  else
    match p.ask (Tracker.load ledger p.store durable) with
    | (.error stop, p) => (.error stop, p)
    | (.ok (), p) =>
      match p.replayAbove ledger durable with
      | (.error f, p) => (.error (.fault f), p)
      | (.ok replayed, p) =>
        -- A load that stops on the way leaves these two as they were.
        let p := { p with durable, loaded := true }
        (.ok (), p.log (.loaded durable ledger.latest replayed))

end CommitPipeline.Pipeline
