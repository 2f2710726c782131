import CommitPipeline.Bytes.Hex
import CommitPipeline.Text.CharClass.Alphabetic
import CommitPipeline.Text.CharClass.Numeric
import CommitPipeline.Text.Pattern

/-!
# Reading patterns

A pattern is read from left to right. Modes that are set inside of parentheses are in force up to
the closing one. While the spacious mode is in force, blanks and comments may stand between the
parts of a pattern and of a set, but not inside of names, settings and escapes other than numbers.
A comment goes from a number sign to the end of the line. Counted repetitions, references to groups
and what looks ahead or behind are no parts of these patterns.

The module introduces:

* `PatternCursor` — what is known before the next character;
* `Pattern.read` — the pattern of a text, if it is one;
* `Pattern.flawOf?` — why a text is no pattern that can be used.
-/

namespace CommitPipeline

/-- Whether a character may begin the name of a group. -/
def Pattern.mayBeginGroupName (c : Char) : Bool := c = '_' || CharClass.alphabetic.has c

/-- Whether a character may stand in the name of a group. -/
def Pattern.mayBeInGroupName (c : Char) : Bool :=
  mayBeginGroupName c || CharClass.numeric.has c || ['.', '[', ']'].contains c

/-- The names of sets. -/
def CharSet.names : List String :=
  ["alnum", "alpha", "ascii", "blank", "cntrl", "digit", "graph", "lower", "print", "punct",
    "space", "upper", "word", "xdigit"]

/-- The letters of the settings. -/
def Modes.letters : List Char := ['i', 'm', 's', 'U', 'u', 'R', 'x']

/-- Whether characters are settings: letters to be switched on, then perhaps a minus sign and those
to be switched off, none of them twice. -/
def Modes.areSettings (flags : List Char) : Bool :=
  flags.all (fun c => c = '-' || letters.contains c) && flags.eraseDups = flags &&
    flags.getLast? ≠ some '-'

/-- The modes with settings. -/
def Modes.set (m : Modes) (flags : List Char) : Modes :=
  let on := flags.takeWhile (· ≠ '-')
  let switched (letter : Char) (now : Bool) : Bool :=
    if flags.contains letter then on.contains letter else now
  { spacious := switched 'x' m.spacious
    anyCase := switched 'i' m.anyCase
    allScripts := switched 'u' m.allScripts }

/-- Characters without the blanks and comments in front of them. -/
def Pattern.skipBlanks : (inComment : Bool) → List Char → List Char
  | _, [] => []
  | true, c :: rest => skipBlanks (c ≠ '\n') rest
  | false, c :: rest =>
    if c = '#' then skipBlanks true rest
    else if CharClass.blank.has c then skipBlanks false rest
    else c :: rest

/-- The character behind blanks. The sign of a comment counts as a blank, but the comment does not:
its own first character is seen. Behind nothing but blanks the first of them is seen. -/
def Pattern.seenBehindBlanks (chars : List Char) : Option Char :=
  let seen := match chars.dropWhile CharClass.blank.has with
    | '#' :: rest => (rest.dropWhile CharClass.blank.has).head?
    | rest => rest.head?
  seen.or chars.head?

/-- What is known of a pattern before the next character. -/
structure PatternCursor where
  /-- The characters that are not read yet. -/
  rest : List Char
  /-- The modes in force. -/
  modes : Modes := {}
  /-- The names of the groups so far. -/
  names : List String := []

namespace PatternCursor

/-- The cursor before other characters. -/
def goTo (k : PatternCursor) (rest : List Char) : PatternCursor := { k with rest }

/-- The cursor behind the blanks and comments that may be left out. -/
def skip (k : PatternCursor) : PatternCursor :=
  if k.modes.spacious then k.goTo (Pattern.skipBlanks false k.rest) else k

/-- The character behind the next one, and behind the blanks that follow it. -/
def secondNext? (k : PatternCursor) : Option Char :=
  if k.modes.spacious then Pattern.seenBehindBlanks k.rest.tail else k.rest.tail.head?

/-- Reads the character of a number with so many hexadecimal digits still to come. -/
def numbered (value : Nat) : (digits : Nat) → PatternCursor → Option (Char × PatternCursor)
  | 0, k => if value.isValidChar then some (Char.ofNat value, k) else none
  | digits + 1, k =>
    match k.skip.rest with
    | [] => none
    | c :: rest => (Hex.value? c.toNat).bind fun d => numbered (16 * value + d) digits (k.goTo rest)

/-- Reads what follows a backslash. Signs stand for themselves, and some letters for what cannot be
seen. -/
def escaped (k : PatternCursor) : Option (Leaf × PatternCursor) :=
  match k.rest with
  | [] => none
  | c :: rest =>
    let k := k.goTo rest
    let char (c : Char) := some (Leaf.char c false, k)
    match c with
    | 'x' => (numbered 0 2 k).map fun (c, k) => (.char c true, k)
    | 'u' => (numbered 0 4 k).map fun (c, k) => (.char c false, k)
    | 'U' => (numbered 0 8 k).map fun (c, k) => (.char c false, k)
    | 'd' | 's' | 'w' => some (.family false, k)
    | 'D' | 'S' | 'W' => some (.family true, k)
    | 'a' => char '\x07'
    | 'f' => char '\x0c'
    | 'n' => char '\n'
    | 'r' => char '\r'
    | 't' => char '\t'
    | 'v' => char '\x0b'
    | 'A' | 'z' => some (.border, k)
    | 'b' | 'B' | '<' | '>' => some (.wordBorder, k)
    | c => if c.isAlphanum || 0x80 ≤ c.toNat then none else char c

/-- Reads an item of a set or an end of a range: an escape or a character. -/
def setItem (k : PatternCursor) : Option (Leaf × PatternCursor) :=
  match k.rest with
  | [] => none
  | '\\' :: rest => (k.goTo rest).escaped
  | c :: rest => some (.char c false, k.goTo rest)

/-- Reads an item of a set, or a range. A dash before the closing bracket or before another dash
makes no range. -/
def setRange (k : PatternCursor) : Option (CharSet × PatternCursor) := do
  let (first, k) ← k.setItem
  let k := k.skip
  let next ← k.rest.head?
  if next ≠ '-' || k.secondNext? = some ']' || k.secondNext? = some '-' then
    match first with
    | .char c _ => return (.range c c, k)
    | .family opposite => return (.family opposite, k)
    | _ => none
  else
    let (last, k) ← (k.goTo k.rest.tail).skip.setItem
    match first, last with
    | .char first _, .char last _ =>
      if first.toNat ≤ last.toNat then return (.range first last, k) else none
    | _, _ => none

/-- Reads a named set behind its opening bracket: a name between colons, with a mark in front of it
for the opposite. -/
def namedSet : List Char → Option (CharSet × List Char)
  | ':' :: rest =>
    let (opposite, rest) := match rest with
      | '^' :: rest => (true, rest)
      | rest => (false, rest)
    match rest.dropWhile (· ≠ ':') with
    | ':' :: ']' :: behind =>
      if CharSet.names.contains (String.ofList (rest.takeWhile (· ≠ ':'))) then
        some (.named opposite, behind)
      else none
    | _ => none
  | _ => none

/-- The mark of an opposite, if it is next. -/
def opposite (k : PatternCursor) : Bool × PatternCursor :=
  match k.rest with
  | '^' :: rest => (true, k.goTo rest)
  | _ => (false, k)

/-- What was read of a set in brackets. -/
structure SetSoFar where
  /-- Whether nothing but dashes was read. -/
  isFresh : Bool := true
  /-- The items behind the last sign between two sets, the last one first. -/
  items : List CharSet := []
  /-- The set before that sign. -/
  left : Option CharSet := none

namespace SetSoFar

/-- The set with one more item. -/
def add (s : SetSoFar) (item : CharSet) : SetSoFar :=
  { s with isFresh := false, items := item :: s.items }

/-- The set as it stands. -/
def close (s : SetSoFar) : CharSet :=
  let right := CharSet.ofItems s.items.reverse
  match s.left with
  | none => right
  | some left => .combined left right

/-- The set before a sign between two sets. -/
def split (s : SetSoFar) : SetSoFar := { isFresh := false, left := some s.close }

end SetSoFar

/-- Reads a set in brackets up to the closing one. A closing bracket stands for itself where the
set has no item yet, and so does a dash where it has no other. Every step reads a character, so the
number of characters bounds the steps. -/
def setBehind : (steps : Nat) → SetSoFar → PatternCursor → Option (CharSet × PatternCursor)
  | 0, _, _ => none
  | steps + 1, s, k => do
    let k := k.skip
    match k.rest with
    | [] => none
    | c :: rest =>
      if s.isFresh && c = '-' then
        setBehind steps { s.add (.range '-' '-') with isFresh := true } (k.goTo rest)
      else if s.isFresh && s.items.isEmpty && c = ']' then
        setBehind steps (s.add (.range ']' ']')) (k.goTo rest)
      else if c = ']' then return (s.close, k.goTo rest)
      else if ['&', '-', '~'].contains c && rest.head? = some c then
        setBehind steps s.split (k.goTo rest.tail)
      else if c = '[' then
        match namedSet rest with
        | some (set, rest) => setBehind steps (s.add set) (k.goTo rest)
        | none =>
          let (opposite, k) := (k.goTo rest).skip.opposite
          let (inner, k) ← setBehind steps {} k
          setBehind steps (s.add (.brackets opposite inner)) k
      else
        let (item, k) ← k.setRange
        setBehind steps (s.add item) k

/-- Reads a set behind its opening bracket. -/
def set (k : PatternCursor) : Option (CharSet × PatternCursor) :=
  let (opposite, k) := k.skip.opposite
  (setBehind (k.rest.length + 1) {} k).map fun (inner, k) => (.brackets opposite inner, k)

/-- Reads the name of a group, which no group before it has. -/
def groupName (k : PatternCursor) : Option PatternCursor :=
  let name := k.rest.takeWhile (· ≠ '>')
  match k.rest.dropWhile (· ≠ '>') with
  | [] => none
  | _ :: rest =>
    if name.head?.any Pattern.mayBeginGroupName && name.all Pattern.mayBeInGroupName &&
        !k.names.contains (String.ofList name) then
      some { k with rest, names := String.ofList name :: k.names }
    else none

/-- What an opening parenthesis begins. -/
inductive Opening where
  /-- A setting, which is closed already. -/
  | setting
  /-- A group. -/
  | group

/-- Reads what follows an opening parenthesis, up to the pattern in a group. -/
def opening (k : PatternCursor) : Option (Opening × PatternCursor) :=
  let k := k.skip
  match k.rest with
  | '?' :: 'P' :: '<' :: rest | '?' :: '<' :: rest => (k.goTo rest).groupName.map (.group, ·)
  | '?' :: rest =>
    let flags := rest.takeWhile fun c => c ≠ ':' && c ≠ ')'
    if !Modes.areSettings flags then none
    else
      match rest.drop flags.length with
      | ':' :: rest => some (.group, { k with rest, modes := k.modes.set flags })
      | ')' :: rest =>
        if flags.isEmpty then none
        else some (.setting, { k with rest, modes := k.modes.set flags })
      | _ => none
  | _ => some (.group, k)

/-- What was read of a pattern. -/
structure SoFar where
  /-- The parts behind the last bar, the last one first. -/
  parts : List Pattern := []
  /-- The alternatives before that bar, the last one first. -/
  branches : List Pattern := []

namespace SoFar

/-- The pattern with one more part. -/
def add (s : SoFar) (part : Pattern) : SoFar := { s with parts := part :: s.parts }

/-- The pattern behind a bar. -/
def split (s : SoFar) : SoFar :=
  { branches := Pattern.ofParts s.parts.reverse :: s.branches }

/-- The pattern as it stands. -/
def close (s : SoFar) : Pattern := Pattern.ofBranches s.split.branches.reverse

/-- The pattern with its last part repeated, if that can be. -/
def repeated (s : SoFar) : Option SoFar :=
  match s.parts with
  | [] | .setting :: _ => none
  | part :: parts => some { s with parts := .repeated part :: parts }

end SoFar

/-- Reads a pattern up to the end, or up to the closing parenthesis if it is in a group. Every step
reads a character, so the number of characters bounds the steps. -/
def pattern (inGroup : Bool) :
    (steps : Nat) → SoFar → PatternCursor → Option (Pattern × PatternCursor)
  | 0, _, _ => none
  | steps + 1, s, k => do
    let k := k.skip
    match k.rest with
    | [] => if inGroup then none else return (s.close, k)
    | c :: rest =>
      let k := k.goTo rest
      match c with
      | ')' => if inGroup then return (s.close, k) else none
      | '|' => pattern inGroup steps s.split k
      | '(' =>
        match ← k.opening with
        | (.setting, k) => pattern inGroup steps (s.add .setting) k
        | (.group, inside) =>
          let (inner, behind) ← pattern true steps {} inside
          pattern inGroup steps (s.add (.group inner)) { behind with modes := k.modes }
      | '[' =>
        let (set, k) ← k.set
        pattern inGroup steps (s.add (.leaf k.modes (.set set))) k
      | '?' | '*' | '+' =>
        -- A question mark behind a repetition asks for as little as can be.
        let k := if rest.head? = some '?' then k.goTo rest.tail else k
        pattern inGroup steps (← s.repeated) k
      | '\x7b' => none
      | '\\' =>
        let (leaf, k) ← k.escaped
        pattern inGroup steps (s.add (.leaf k.modes leaf)) k
      | '.' => pattern inGroup steps (s.add (.leaf k.modes .any)) k
      | '^' | '$' => pattern inGroup steps (s.add (.leaf k.modes .border)) k
      | c => pattern inGroup steps (s.add (.leaf k.modes (.char c false))) k

end PatternCursor

/-- The pattern of characters, if they are one. -/
def Pattern.read (chars : List Char) : Option Pattern :=
  (PatternCursor.pattern false (chars.length + 1) {} { rest := chars }).map Prod.fst

/-- Why characters are no pattern that can be used, if they are none. -/
def Pattern.flawOf? (chars : List Char) : Option Flaw :=
  match read chars with
  | none => some .unusable
  | some p => p.flaw?

end CommitPipeline
