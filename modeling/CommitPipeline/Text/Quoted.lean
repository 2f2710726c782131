import CommitPipeline.Text.CharClass.Hidden

/-!
# Quoted characters and texts

A quoted character stands between single quotes, a quoted text between double quotes. Inside,
the quote of the other kind is plain, the backslash and the own quote take a backslash, tab, line
feed, carriage return and the zero character have short escapes, and any other hidden character is
written by its number.
-/

namespace CommitPipeline.Quoted

/-- The number of a character in base sixteen, between braces. -/
def numbered (c : Char) : List Char :=
  "\\u\x7b".toList ++ Nat.toDigits 16 c.toNat ++ ['\x7d']

/-- A character inside quotes of one kind. -/
def inside (quote : Char) (c : Char) : List Char :=
  if c = '\x00' then ['\\', '0']
  else if c = '\t' then ['\\', 't']
  else if c = '\n' then ['\\', 'n']
  else if c = '\r' then ['\\', 'r']
  else if c = '\\' || c = quote then ['\\', c]
  else if CharClass.hidden.has c then numbered c
  else [c]

/-- A character between single quotes. -/
def char (c : Char) : String := String.ofList ('\'' :: inside '\'' c ++ ['\''])

/-- A text between double quotes. -/
def text (s : String) : String :=
  String.ofList ('"' :: s.toList.flatMap (inside '"') ++ ['"'])

end CommitPipeline.Quoted
