/-!
# Patterns

A pattern is a text that describes other texts: characters stand for themselves, a point for any of
them, brackets for one of several; a star, a plus and a question mark repeat what stands before
them, a bar parts alternatives and parentheses hold a pattern together. This module holds the parts
of a pattern and tells which patterns can be used; it gives them no meaning.

What takes the tables of all scripts cannot be used: letters without regard to case, and the
families of words, digits and blanks, as long as characters are meant. If only bytes are meant,
nothing may stand for a byte that is no character of its own: so neither a point nor the opposite
of a set can be used.

The module introduces:

* `CharSet`, `Leaf`, `Pattern` — the parts of a pattern;
* `Pattern.depth` — how deep its parts are nested;
* `Pattern.flaw?` — why a pattern cannot be used.
-/

namespace CommitPipeline

/-- What is in force for a part of a pattern. -/
structure Modes where
  /-- Blanks and comments between the parts are left out. -/
  spacious : Bool := false
  /-- Letters stand for their capitals too, and capitals for their letters. -/
  anyCase : Bool := false
  /-- The characters of all scripts are meant, and not bytes. -/
  allScripts : Bool := true
  deriving DecidableEq, Repr

/-- What a set of characters is made of. -/
inductive CharSet where
  /-- The characters from one to another. -/
  | range (first last : Char)
  /-- A set with a name, or its opposite. -/
  | named (opposite : Bool)
  /-- Words, digits or blanks, or the opposite of one of these. -/
  | family (opposite : Bool)
  /-- A set in brackets, or its opposite. -/
  | brackets (opposite : Bool) (inner : CharSet)
  /-- Several sets, or none, in a row: what is in any of them. -/
  | union (items : List CharSet)
  /-- Two sets with a sign between them. -/
  | combined (left right : CharSet)

namespace CharSet

/-- The set of a row: one set stands for itself. -/
def ofItems : List CharSet → CharSet
  | [item] => item
  | items => union items

mutual

/-- How deep the parts of a set are nested. -/
def depth : CharSet → Nat
  | range .. | named _ | family _ | union [] => 0
  | brackets _ inner => inner.depth + 1
  | union items => depthOfList items + 1
  | combined left right => max left.depth right.depth + 1

/-- How deep the parts of sets are nested. -/
def depthOfList : List CharSet → Nat
  | [] => 0
  | item :: rest => max item.depth (depthOfList rest)

end

mutual

/-- Whether a set can be used. -/
def isUsable (m : Modes) : CharSet → Bool
  | range first last => if m.allScripts then !m.anyCase else first.toNat < 0x80 && last.toNat < 0x80
  | named opposite => if m.allScripts then !m.anyCase else !opposite
  | family opposite => !m.allScripts && !opposite
  | brackets opposite inner => inner.isUsable m && (m.allScripts || !opposite)
  | union items => areUsable m items
  | combined left right => left.isUsable m && right.isUsable m

/-- Whether sets can be used. -/
def areUsable (m : Modes) : List CharSet → Bool
  | [] => true
  | item :: rest => item.isUsable m && areUsable m rest

end

end CharSet

/-- A part of a pattern that holds no other pattern. -/
inductive Leaf where
  /-- A character, which may be given as the number of a byte. -/
  | char (c : Char) (isByte : Bool)
  /-- Any character. -/
  | any
  /-- Words, digits or blanks, or the opposite of one of these. -/
  | family (opposite : Bool)
  /-- A set of characters. -/
  | set (set : CharSet)
  /-- An end of the text or of a line. -/
  | border
  /-- A place where a word begins or ends, or its opposite. -/
  | wordBorder

/-- Whether a part of a pattern can be used. -/
def Leaf.isUsable (m : Modes) : Leaf → Bool
  | char c isByte => if m.allScripts then !m.anyCase else !isByte || c.toNat < 0x80
  | any => m.allScripts
  | family opposite => !m.allScripts && !opposite
  | set s => s.isUsable m
  | border | wordBorder => true

/-- Whether a part of a pattern asks where words of all scripts begin and end. -/
def Leaf.asksForWords (m : Modes) : Leaf → Bool
  | wordBorder => m.allScripts
  | _ => false

/-- A pattern. -/
inductive Pattern where
  /-- A part that holds no other pattern, and what is in force for it. -/
  | leaf (modes : Modes) (leaf : Leaf)
  /-- Puts modes in force for what follows. -/
  | setting
  /-- A pattern in parentheses. -/
  | group (inner : Pattern)
  /-- A pattern that may come more than once, or not at all. -/
  | repeated (inner : Pattern)
  /-- Several patterns, or none, one after the other. -/
  | sequence (parts : List Pattern)
  /-- Alternatives. -/
  | choice (branches : List Pattern)

namespace Pattern

/-- Patterns one after the other: one pattern stands for itself. -/
def ofParts : List Pattern → Pattern
  | [part] => part
  | parts => sequence parts

/-- Alternatives: one pattern stands for itself. -/
def ofBranches : List Pattern → Pattern
  | [branch] => branch
  | branches => choice branches

mutual

/-- How deep the parts of a pattern are nested. -/
def depth : Pattern → Nat
  | leaf _ (.set s) => s.depth
  | leaf .. | setting | sequence [] => 0
  | group inner | repeated inner => inner.depth + 1
  | sequence patterns | choice patterns => depthOfList patterns + 1

/-- How deep the parts of patterns are nested. -/
def depthOfList : List Pattern → Nat
  | [] => 0
  | p :: rest => max p.depth (depthOfList rest)

end

mutual

/-- The parts that hold no other pattern, and what is in force for each. -/
def leaves : Pattern → List (Modes × Leaf)
  | leaf modes l => [(modes, l)]
  | setting => []
  | group inner | repeated inner => inner.leaves
  | sequence patterns | choice patterns => leavesOfList patterns

/-- The parts of patterns that hold no other pattern. -/
def leavesOfList : List Pattern → List (Modes × Leaf)
  | [] => []
  | p :: rest => p.leaves ++ leavesOfList rest

end

/-- The deepest nesting that can be used. -/
def maxDepth : Nat := 250

/-- Why a text is no pattern that can be used. -/
inductive Flaw where
  /-- It is no pattern, or one with a part that cannot be used. -/
  | unusable
  /-- It asks where words begin and end, which is known for bytes only. -/
  | words
  deriving DecidableEq, Repr

/-- The text of a flaw. -/
def Flaw.message : Flaw → String
  | unusable => "error building NFA"
  | words =>
    "unsupported regex feature for DFAs: cannot build DFAs for regexes with Unicode word "
      ++ "boundaries; switch to ASCII word boundaries, or heuristically enable Unicode word "
      ++ "boundaries or use a different regex engine"

/-- Why a pattern cannot be used, if it cannot. -/
def flaw? (p : Pattern) : Option Flaw :=
  if maxDepth < p.depth || !p.leaves.all (fun (m, l) => l.isUsable m) then some .unusable
  else if p.leaves.any (fun (m, l) => l.asksForWords m) then some .words
  else none

end Pattern

end CommitPipeline
