import CommitPipeline.Fault
import CommitPipeline.Simulator.LogFilter
import CommitPipeline.Text.Decimal
import CommitPipeline.Text.Pattern.Reader

/-!
# Reading a filter

The text of a filter is a list of items between commas. An item is a scope with or without a level
behind an equals sign, or a level alone. A scope is a target, brackets, or a target with brackets
behind it. Brackets hold the name of a span, or a field in braces, or both; a field is a name, with
or without a value behind an equals sign, which is a number or a pattern. Lines inside of spans, and
lines by the value of a field, are never let through: an item for them is read and then left alone.

The places where the parts of an item begin and end are counted from its first character that is
no blank, but the parts are taken by counting from its first character. Behind a blank every part
therefore begins and ends too early, which is a fault if it is inside of a character.

The module introduces:

* `readThreshold` — the level of a word or a number;
* `Item` — an item of a filter's text; `Item.read` — what it says;
* `LogFilter.read` — the filter of a text, with remarks about the items that cannot be read.
-/

namespace CommitPipeline.Simulator

/-- The level of a word, in capitals or not. -/
def thresholdOfWord (word : String) : Option Threshold :=
  match String.ofList (word.toList.map Char.toLower) with
  | "off" => some none
  | "error" => some (some .error)
  | "warn" => some (some .warn)
  | "info" => some (some .info)
  | "debug" => some (some .debug)
  | "trace" => some (some .trace)
  | _ => none

/-- The level of a word or a number: the higher the number, the more is printed. -/
def readThreshold (text : String) : Option Threshold :=
  match Decimal.ofString? text with
  | none => thresholdOfWord text
  | some 0 => some none
  | some 1 => some (some .error)
  | some 2 => some (some .warn)
  | some 3 => some (some .info)
  | some 4 => some (some .debug)
  | some 5 => some (some .trace)
  | some _ => none

/-- Why an item cannot be read. -/
inductive ItemFlaw where
  /-- It does not have the form of an item. -/
  | form
  /-- There is no such level. -/
  | level
  /-- The value of a field is no pattern that can be used. -/
  | pattern (flaw : Pattern.Flaw)
  deriving DecidableEq, Repr

/-- The text of a flaw. -/
def ItemFlaw.message : ItemFlaw → String
  | form => "invalid filter directive"
  | level =>
    "error parsing level filter: expected one of \"off\", \"error\", \"warn\", \"info\", "
      ++ "\"debug\", \"trace\", or a number 0-5"
  | pattern flaw => s!"invalid field filter: {flaw.message}"

/-- How the reading of an item fails. -/
inductive ItemStop where
  /-- The item cannot be read. -/
  | flaw (flaw : ItemFlaw)
  /-- The reading is cut short. -/
  | fault (fault : Fault)
  deriving DecidableEq, Repr

/-- How many bytes characters take. -/
def byteCount (chars : List Char) : Nat := (String.ofList chars).utf8ByteSize

/-- An item of a filter's text. -/
structure Item where
  /-- The item with its blanks. -/
  text : String

namespace Item

/-- Splits characters at a byte position, counted from where `passed` bytes of the item are gone. -/
def splitAt (side : PartEnd) (position : Nat) :
    (passed : Nat) → List Char → Except ItemStop (List Char × List Char)
  | _, [] => .ok ([], [])
  | passed, c :: rest =>
    if position ≤ passed then .ok ([], c :: rest)
    else if position < passed + c.utf8Size then
      .error (.fault (.insideCharacter side position c passed))
    else
      (splitAt side position (passed + c.utf8Size) rest).map fun (front, rest) => (c :: front, rest)

/-- The part of an item behind a position. -/
def tail (i : Item) (start : Nat) : Except ItemStop (List Char) :=
  (splitAt .start start 0 i.text.toList).map Prod.snd

/-- The part of an item between two positions. -/
def part (i : Item) (start stop : Nat) : Except ItemStop String := do
  let chars ← i.tail start
  let (front, _) ← splitAt .stop stop start chars
  return String.ofList front

/-- The level behind an equals sign; without any text everything is let through. -/
def level (i : Item) (start : Nat) : Except ItemStop Threshold := do
  match String.ofList (← i.tail start) with
  | "" => return some .trace
  | text =>
    match readThreshold text with
    | some threshold => return threshold
    | none => throw (.flaw .level)

/-- What follows the brackets: nothing, which lets everything through, or a level. -/
def levelBehind (i : Item) (position : Nat) : List Char → Except ItemStop Threshold
  | [] => return some .trace
  | '=' :: _ => i.level (position + 1)
  | _ :: _ => throw (.flaw .form)

/-- Why a value cannot be asked for, if it cannot. A number with a plus sign in front is no pattern;
other numbers are patterns as well. -/
def valueFlaw? : List Char → Option Pattern.Flaw
  | '+' :: rest => if Decimal.isUnsigned rest then none else Pattern.flawOf? ('+' :: rest)
  | value => Pattern.flawOf? value

/-- The value that a field asks for: what stands between its first two equals signs. -/
def value? (field : String) : Option (List Char) :=
  match field.toList.dropWhile (· ≠ '=') with
  | [] => none
  | _ :: rest => some (rest.takeWhile (· ≠ '='))

/-- Reads a field, up to the end of the item. -/
def field (i : Item) (target span : String) (start : Nat) (rest : List Char) :
    Except ItemStop (Option Directive) := do
  let (inside, rest) := rest.span (· ≠ '\x7d')
  let stop := start + byteCount inside
  match rest with
  | [] => throw (.flaw .form)
  | _ :: rest =>
    let field ← i.part start stop
    if field = "" then throw (.flaw .form)
    if let some flaw := (value? field).bind valueFlaw? then throw (.flaw (.pattern flaw))
    match rest with
    | ']' :: rest =>
      let threshold ← i.levelBehind (stop + 2) rest
      if span ≠ "" || (value? field).isSome then return none
      else return some { target, field := some field, threshold }
    | _ => throw (.flaw .form)

/-- Reads what is in brackets, up to the end of the item. -/
def brackets (i : Item) (target : String) (start : Nat) (rest : List Char) :
    Except ItemStop (Option Directive) := do
  let (inside, rest) := rest.span fun c => c ≠ ']' && c ≠ '\x7b'
  let stop := start + byteCount inside
  match rest with
  | [] => throw (.flaw .form)
  | c :: rest =>
    let span ← i.part start stop
    if c = ']' then
      let _ ← i.levelBehind (stop + 1) rest
      return none
    else i.field target span (stop + 1) rest

/-- Whether a target or a level may begin with a character. -/
def mayBegin (c : Char) : Bool :=
  c = '-' || c = ':' || c = '_' || CharClass.alphabetic.has c || CharClass.numeric.has c

/-- Reads an item: its directive, if it lets any line through. -/
def read (i : Item) : Except ItemStop (Option Directive) := do
  match CharClass.trimBlank i.text.toList with
  | [] => throw (.flaw .form)
  | '[' :: rest => i.brackets "" 1 rest
  | c :: rest =>
    if !mayBegin c then throw (.flaw .form)
    let (front, rest) := (c :: rest).span fun c => c ≠ '=' && c ≠ '['
    let stop := byteCount front
    match rest with
    | [] =>
      match readThreshold i.text with
      | some threshold => return some { threshold }
      | none => return some { target := i.text, threshold := some .trace }
    | c :: rest =>
      let target ← i.part 0 stop
      if c = '[' then i.brackets target (stop + 1) rest
      else return some { target, threshold := ← i.level (stop + 1) }

end Item

/-- What a filter's text says. -/
structure FilterText where
  /-- What the items say that can be read, in their order. -/
  items : List (Option Directive) := []
  /-- Remarks about the others. -/
  remarks : List String := []

/-- Reads items up to the first fault. -/
def FilterText.ofItems : List Item → Except Fault FilterText
  | [] => .ok {}
  | i :: rest =>
    match i.read with
    | .error (.fault f) => .error f
    | .error (.flaw flaw) => (ofItems rest).map fun said =>
        { said with remarks := s!"ignoring `{i.text}`: {flaw.message}" :: said.remarks }
    | .ok directive => (ofItems rest).map fun said =>
        { said with items := directive :: said.items }

/-- The filter of what a text says. A text without an item that can be read lets errors through. -/
def FilterText.filter (said : FilterText) : LogFilter :=
  if said.items.isEmpty then [{ threshold := some .error }] else said.items.filterMap id

/-- Reads a filter: its items are the pieces between commas that are not empty. -/
def FilterText.read (text : String) : Except Fault FilterText :=
  FilterText.ofItems (((text.splitOn ",").filter (· ≠ "")).map Item.mk)

end CommitPipeline.Simulator
