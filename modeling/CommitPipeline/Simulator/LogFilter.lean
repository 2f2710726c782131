import CommitPipeline.Journal

/-!
# Which lines of the log are printed

A filter is a list of directives, each a level for the lines of some scope: those from the parts
of the program whose name starts with a target, and of these perhaps only the lines with a certain
field. Of the directives that fit a line the most specific one decides; the line is printed if it
matters at least as much as the level of that directive says.

The module introduces:

* `Directive` — a scope with a level; `Directive.fits` — whether a line is in the scope;
* `LogFilter.decisive` — the directive that decides about a line;
* `LogFilter.prints` — whether a line is printed.
-/

namespace CommitPipeline.Simulator

/-- The least level that is printed, if any line is. -/
abbrev Threshold := Option Level

/-- One directive of a filter. -/
structure Directive where
  /-- The start of the names it is for; the empty text is for all. -/
  target : String := ""
  /-- The field that a line must have, if one is asked for. -/
  field : Option String := none
  /-- The level from which on lines are printed. -/
  threshold : Threshold
  deriving DecidableEq, Repr

/-- Which lines of the log are printed. -/
abbrev LogFilter := List Directive

/-- The name of a part of the program. -/
def sourceName : Source → String
  | .pipeline => "roundtrack_tracker::registry"
  | .worker => "roundtrack_tracker::syncer"
  | .bulletin => "roundtrack_tracker::bulletin"
  | .tail => "roundtrack_tracker::block_tail"
  | .simulator => "roundtrack_sim"

/-- The names of the fields of a line, of which the title is one. -/
def fieldNames (e : Event) : List String := "message" :: e.fields.map Prod.fst

namespace Directive

/-- Whether a line is in the scope of a directive. -/
def fits (d : Directive) (e : Event) : Bool :=
  d.target.toList.isPrefixOf (sourceName e.source).toList &&
    d.field.all (fieldNames e).contains

/-- Whether a directive is more specific than another one that fits the same line: its target is
longer, or else it asks for a field and the other does not, or for one later in the order of
texts. -/
def isAbove (d other : Directive) : Bool :=
  if d.target.length = other.target.length then
    match d.field, other.field with
    | some name, some name' => name' < name
    | some _, none => true
    | none, _ => false
  else other.target.length < d.target.length

end Directive

namespace LogFilter

/-- The filter of a verbosity: informative lines, then finer ones. -/
def ofVerbosity : Nat → LogFilter
  | 0 => [{ threshold := some .info }]
  | 1 => [{ threshold := some .debug }]
  | _ => [{ threshold := some .trace }]

/-- The directive that decides about a line: the most specific one that fits, and of equally
specific ones the last. -/
def decisive (filter : LogFilter) (e : Event) : Option Directive :=
  (filter.filter (·.fits e)).foldl
    (fun best d => if best.any (·.isAbove d) then best else some d) none

/-- Whether a line is printed. -/
def prints (filter : LogFilter) (e : Event) : Bool :=
  match (filter.decisive e).bind Directive.threshold with
  | some level => !e.isSpan && level.rank ≤ e.level.rank
  | none => false

end LogFilter

end CommitPipeline.Simulator
