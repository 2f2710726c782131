import CommitPipeline.CommitRange

/-!
# Calls of guest trackers

A `Call` is a question the pipeline put to a guest tracker, with what the tracker was handed; a
`Notice` is what the pipeline tells its trackers about a cycle.
-/

namespace CommitPipeline

/-- What a tracker is told about a cycle it took part in. -/
inductive Notice where
  /-- The transaction is written; readers are still held back. -/
  | landed
  /-- The transaction is written and readers are let in again. -/
  | released
  /-- The cycle was skipped because it built on another durable round. -/
  | outOfOrder
  /-- A tracker objected before anything was written. -/
  | prepareFailed
  /-- The transaction failed and nothing of it is kept. -/
  | writeFailed
  deriving DecidableEq, Repr

/-- A call of a guest tracker. -/
inductive Call where
  | load (durable latest : Round)
  | newBlock (block delta : Round)
  | need (committed : Round)
  | refine (committed durable : Round) (range : CommitRange)
  | prepare (ticket : Ticket)
  | write (ticket : Ticket) (stored : Round)
  | told (notice : Notice) (ticket : Ticket)
  | close
  deriving DecidableEq, Repr

/-- The word for a notice. -/
def Notice.text : Notice → String
  | landed => "post_commit"
  | released => "post_commit_unlocked"
  | outOfOrder => "handle_unordered_commit"
  | prepareFailed => "handle_prepare_commit_error"
  | writeFailed => "handle_commit_error"

/-- The text of a call. -/
def Call.text : Call → String
  | load durable latest => s!"load_from_disk db={durable} latest={latest}"
  | newBlock block delta => s!"new_block {block}/{delta}"
  | need committed => s!"committed_up_to {committed}"
  | refine committed durable range =>
    s!"produce_committing_task {committed} {durable} {range.text}"
  | prepare ticket => s!"prepare_commit {ticket.text}"
  | write ticket stored => s!"commit_round {ticket.text} tx_db_round={stored}"
  | told notice ticket => s!"{notice.text} {ticket.text}"
  | close => "close"

end CommitPipeline
