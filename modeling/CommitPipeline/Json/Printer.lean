import CommitPipeline.Bytes.Hex
import CommitPipeline.Json

/-!
# Writing JSON

The text of a value without a blank: fields and items in their order, characters of a string as
they are or by an escape of four digits, numbers by their decimal digits.
-/

namespace CommitPipeline.Json

/-- The escape of a unit. -/
def printUnit (unit : UInt16) : List Char :=
  let n := unit.toNat
  ['\\', 'u', Hex.digit (n / 0x1000), Hex.digit (n / 0x100 % 16), Hex.digit (n / 16 % 16),
    Hex.digit (n % 16)]

/-- A piece of a string. -/
def printPiece : Piece → List Char
  | .raw c => [c]
  | .escaped unit => printUnit unit

/-- A string between its quotes. -/
def printString (pieces : List Piece) : List Char :=
  '"' :: pieces.flatMap printPiece ++ ['"']

mutual

/-- The characters of a value. -/
def print : Json → List Char
  | null => ['n', 'u', 'l', 'l']
  | bool true => ['t', 'r', 'u', 'e']
  | bool false => ['f', 'a', 'l', 's', 'e']
  | nat n => Nat.toDigits 10 n
  | number text => text
  | str pieces => printString pieces
  | arr [] => ['[', ']']
  | arr (item :: items) => '[' :: item.print ++ printItems items
  | obj [] => ['\x7b', '\x7d']
  | obj ((name, value) :: fields) =>
    '\x7b' :: printString name ++ ':' :: value.print ++ printFields fields

/-- The characters of further items, up to the closing bracket. -/
def printItems : List Json → List Char
  | [] => [']']
  | item :: items => ',' :: item.print ++ printItems items

/-- The characters of further fields, up to the closing brace. -/
def printFields : List (List Piece × Json) → List Char
  | [] => ['\x7d']
  | (name, value) :: fields => ',' :: printString name ++ ':' :: value.print ++ printFields fields

end

/-- The text of a value. -/
def render (j : Json) : String := String.ofList j.print

end CommitPipeline.Json
