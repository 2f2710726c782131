import CommitPipeline.Fault

/-!
# Errors

What an operation of the pipeline can refuse with. An error is an answer: the operation ran to
its end and says why it did not do what was asked. A `Stop` is either an error or a fault, for
operations that can end in both ways.
-/

namespace CommitPipeline

/-- What the file system or the database file holds against an access. -/
inductive IoCause where
  /-- A directory of the path is missing. -/
  | notFound
  /-- There is a file where a directory is to be made. -/
  | fileExists
  /-- A directory of the path is a plain file. -/
  | notADirectory
  /-- The database file is a directory. -/
  | isADirectory
  /-- The path, or a name in it, is too long. -/
  | nameTooLong
  /-- The path holds a zero character. -/
  | zeroInName
  /-- The database file breaks off. -/
  | truncated
  /-- The database file holds something else. -/
  | invalidData
  deriving DecidableEq, Repr

/-- The text of a cause. -/
def IoCause.message : IoCause → String
  | notFound => "No such file or directory (os error 2)"
  | fileExists => "File exists (os error 17)"
  | notADirectory => "Not a directory (os error 20)"
  | isADirectory => "Is a directory (os error 21)"
  | nameTooLong => "File name too long (os error 36)"
  | zeroInName => "file name contained an unexpected NUL byte"
  | truncated => "failed to fill whole buffer"
  | invalidData => "invalid data"

/-- What is wrong with a stored row. -/
inductive RowFlaw where
  /-- A block summary has the wrong number of bytes. -/
  | summaryLength (found expected : Nat)
  /-- A tracker's own complaint. -/
  | other (text : String)
  deriving DecidableEq, Repr

/-- The text of a flaw. -/
def RowFlaw.message : RowFlaw → String
  | summaryLength found expected => s!"block tail entry is {found} bytes, expected {expected}"
  | other text => text

/-- What is wrong with the header of a database file. -/
inductive FileDamage where
  /-- It is of a version that is not known. -/
  | version (found : Nat)
  /-- None of its slots can be read. -/
  | bothSlots
  /-- Its first slot cannot be read, and the other one does not count. -/
  | primarySlot
  deriving DecidableEq, Repr

/-- The text of a damage. -/
def FileDamage.message : FileDamage → String
  | version found => s!"Expected file format version <= 3, found {found}"
  | bothSlots => "Both commit slots are corrupted"
  | primarySlot => "Primary is corrupted despite 2-phase commit"

/-- Errors of the store. -/
inductive StoreError where
  /-- The database file is in use. -/
  | alreadyOpen
  /-- The database file cannot be opened. -/
  | unreadable (cause : IoCause)
  /-- The database file is of a version that is no longer read. -/
  | outdated (version : Nat)
  /-- The database file has a header that cannot be read. -/
  | damaged (damage : FileDamage)
  /-- The directory of the database cannot be made. -/
  | io (cause : IoCause)
  /-- The named table is keyed by texts and not by rounds. -/
  | keyedByText (table : String)
  /-- A stored row cannot be decoded. -/
  | corrupt (flaw : RowFlaw)
  deriving DecidableEq, Repr

/-- What an error of the store is about. -/
def StoreError.subject : StoreError → String
  | alreadyOpen | unreadable _ | outdated _ | damaged _ => "Database error"
  | io _ => "IO error"
  | keyedByText _ => "Table error"
  | corrupt _ => "Corrupt row"

/-- What an error of the store says about its subject. -/
def StoreError.reason : StoreError → String
  | alreadyOpen => "Database already open. Cannot acquire lock."
  | unreadable cause => s!"I/O error: {cause.message}"
  | outdated version =>
    "Manual upgrade required. Expected file format version 2, but file is version "
      ++ toString version
  | damaged damage => s!"DB corrupted: {damage.message}"
  | io cause => cause.message
  | keyedByText table => s!"{table} is of type Table<&str, u64>"
  | corrupt flaw => flaw.message

/-- The text of an error of the store. -/
def StoreError.message (e : StoreError) : String := s!"{e.subject}: {e.reason}"

/-- What lies behind an error of the store. A corrupt row has nothing behind it: the store itself
found it. -/
def StoreError.causes : StoreError → List String
  | corrupt _ => []
  | e => [e.reason]

/-- How the opening of a database fails. -/
inductive OpenFailure where
  /-- It refused. -/
  | refused (error : StoreError)
  /-- It was cut short. -/
  | fault (fault : Fault)
  deriving DecidableEq, Repr

/-- A setting that must not be zero. -/
inductive Knob where
  | maxRounds
  | tailRetain
  | queueCapacity
  deriving DecidableEq, Repr

/-- The name of a setting. -/
def Knob.name : Knob → String
  | maxRounds => "max_rounds_per_commit"
  | tailRetain => "block_tail_retain"
  | queueCapacity => "deferred_commit_capacity"

/-- Why a tracker holds a range for infeasible. -/
inductive Objection where
  /-- A round of the range is not held in memory. -/
  | notHeld (round : Round)
  /-- The range covers more rounds than the tracker takes. -/
  | tooLong (rounds : UInt64)
  /-- A tracker's own complaint. -/
  | other (text : String)
  deriving DecidableEq, Repr

/-- The text of an objection. -/
def Objection.message : Objection → String
  | notHeld round => s!"round {round} is not in memory"
  | tooLong rounds => s!"refusing {rounds} rounds"
  | other text => text

/-- Why a tracker could not write its part of a range. -/
inductive WriteFailure where
  /-- What was staged does not fit the range. -/
  | wrongCount (staged : Nat) (rounds : UInt64)
  /-- A tracker's own complaint. -/
  | other (text : String)
  deriving DecidableEq, Repr

/-- The text of a failure to write. -/
def WriteFailure.message : WriteFailure → String
  | wrongCount staged rounds => s!"{staged} rows staged for {rounds} rounds"
  | other text => text

/-- Errors of the pipeline. -/
inductive PipelineError where
  /-- The store refused. -/
  | store (error : StoreError)
  /-- A tracker holds the range for infeasible; a narrower one may do. -/
  | cannotPrepare (tracker : String) (objection : Objection)
  /-- A tracker failed inside the transaction. -/
  | cannotWrite (tracker : String) (failure : WriteFailure)
  /-- The store is ahead of the ledger. -/
  | storeAhead (stored latest : Round)
  /-- A cycle was run before the trackers were loaded. -/
  | notLoaded
  /-- The queue already has, or had, a worker. -/
  | workerTaken
  /-- A setting is zero. -/
  | zeroKnob (knob : Knob)
  deriving DecidableEq, Repr

/-- The text of an error of the pipeline. -/
def PipelineError.message : PipelineError → String
  | store error => s!"Storage error: {error.message}"
  | cannotPrepare tracker objection =>
    s!"Tracker {tracker} cannot prepare commit: {objection.message}"
  | cannotWrite tracker failure => s!"Tracker {tracker} failed to commit: {failure.message}"
  | storeAhead stored latest =>
    s!"Tracker database is at round {stored} but the ledger only reached {latest}"
  | notLoaded => "Trackers not loaded from disk"
  | workerTaken => "Commit syncer already started"
  | zeroKnob knob => s!"Invalid config: {knob.name} must be at least 1"

/-- How an operation fails to give its result. -/
inductive Stop where
  /-- It refused. -/
  | error (error : PipelineError)
  /-- It was cut short. -/
  | fault (fault : Fault)
  deriving DecidableEq, Repr

/-- An operation on a state that may end early: the state it leaves is kept in either case. -/
abbrev Act (ε σ α : Type) := σ → Except ε α × σ

end CommitPipeline
