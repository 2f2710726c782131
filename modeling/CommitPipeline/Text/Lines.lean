/-!
# Lines

A line of a text ends with a line feed, with or without a carriage return before it. What stands
behind the last line feed is a line that the printer of the text ends.
-/

namespace CommitPipeline.Lines

/-- A text without a carriage return at its end. -/
def dropReturn (text : String) : String :=
  match text.toList.reverse with
  | '\r' :: rest => String.ofList rest.reverse
  | _ => text

/-- The lines of a text. -/
def ofText (text : String) : List String := (text.splitOn "\n").map dropReturn

end CommitPipeline.Lines
