import CommitPipeline.Round
import CommitPipeline.Text.Quoted

/-!
# Faults

A fault cuts an operation short: an arithmetic step leaves the 64-bit word, a size is beyond what
can be held, or a caller broke a rule the operation relies on. What the operation did before the
fault stays done, so every operation of this library that can fault also says which state it
leaves.
-/

namespace CommitPipeline

/-- The ends of a part that is taken out of a text. -/
inductive PartEnd where
  | start
  | stop
  deriving DecidableEq, Repr

/-- The name of an end. -/
def PartEnd.name : PartEnd → String
  | start => "start"
  | stop => "end"

/-- Why an operation was cut short. -/
inductive Fault where
  /-- A sum left the 64-bit word. -/
  | addOverflow
  /-- A difference went below zero. -/
  | subOverflow
  /-- A product left the 64-bit word. -/
  | mulOverflow
  /-- Room was asked for more rows than memory can address. -/
  | tooManyRows
  /-- Room was asked for more tickets than a queue can count. -/
  | tooManyTickets
  /-- A bulletin was told of a round below the one it already announced. -/
  | regressed (round latest : Round)
  /-- A table was addressed by the empty name. -/
  | unnamedTable
  /-- A part of a text was to begin or end inside of a character, which begins at the byte
  `first`. -/
  | insideCharacter (side : PartEnd) (position : Nat) (character : Char) (first : Nat)
  /-- A database file has pages of another size than is known. -/
  | pageSize (found expected : Nat)
  /-- A database file has regions without a page. -/
  | emptyRegion
  /-- A database file is shorter than its regions. -/
  | fileTooShort
  /-- A tracker gave up with a text of its own. -/
  | raised (text : String)
  deriving DecidableEq, Repr

/-- The text a fault is reported with. -/
def Fault.message : Fault → String
  | addOverflow => "attempt to add with overflow"
  | subOverflow => "attempt to subtract with overflow"
  | mulOverflow => "attempt to multiply with overflow"
  | tooManyRows => "capacity overflow"
  | tooManyTickets =>
    "a semaphore may not have more than MAX_PERMITS permits (2305843009213693951)"
  | regressed round latest => s!"notify_round({round}) regresses latest round {latest}"
  | unnamedTable => "assertion failed: !name.is_empty()"
  | insideCharacter side position character first =>
    s!"{side.name} byte index {position} is not a char boundary; it is inside "
      ++ s!"{Quoted.char character} (bytes {first}..{first + character.utf8Size} of string)"
  | pageSize found expected =>
    s!"assertion `left == right` failed\n  left: {found}\n right: {expected}"
  | emptyRegion => "assertion failed: num_pages > 0"
  | fileTooShort => "assertion failed: storage.raw_file_len()? >= header.layout().len()"
  | raised text => text

end CommitPipeline
