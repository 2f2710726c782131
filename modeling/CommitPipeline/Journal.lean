import CommitPipeline.Journal.Call
import CommitPipeline.Journal.Event

/-!
# The journal

What the pipeline and its trackers report while they work, in the order of happening: lines of
the log, and calls of guest trackers, each noted before the guest answers.
-/

namespace CommitPipeline

/-- Something that happened. -/
inductive Entry where
  /-- A line of the log. -/
  | event (event : Event)
  /-- A guest tracker, given by its name, was called. -/
  | call (tracker : String) (call : Call)
  deriving DecidableEq, Repr

/-- What happened, oldest first. -/
abbrev Journal := List Entry

namespace Journal

/-- The lines of the log. -/
def events (j : Journal) : List Event :=
  j.filterMap fun
    | .event e => some e
    | .call .. => none

/-- The calls of guest trackers. -/
def calls (j : Journal) : List (String × Call) :=
  j.filterMap fun
    | .event _ => none
    | .call tracker c => some (tracker, c)

end Journal

end CommitPipeline
