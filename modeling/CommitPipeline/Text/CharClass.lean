/-!
# Classes of characters

A class of characters is given by the closed ranges of their code points, in ascending order and
apart from each other. The classes that are tables of some length have modules of their own; their
members are those of Unicode 17.

The module introduces:

* `CharClass.has` — whether a character is in a class;
* `CharClass.blank` — the characters that are white space.
-/

namespace CommitPipeline

/-- Closed ranges of code points. -/
abbrev CharClass := List (Nat × Nat)

namespace CharClass

/-- Whether a character is in a class. -/
def has (k : CharClass) (c : Char) : Bool := k.any fun r => r.1 ≤ c.toNat && c.toNat ≤ r.2

/-- White space. -/
def blank : CharClass :=
  [(0x9, 0xd), (0x20, 0x20), (0x85, 0x85), (0xa0, 0xa0), (0x1680, 0x1680), (0x2000, 0x200a),
   (0x2028, 0x2029), (0x202f, 0x202f), (0x205f, 0x205f), (0x3000, 0x3000)]

/-- A text without the white space at both ends. -/
def trimBlank (chars : List Char) : List Char :=
  ((chars.dropWhile blank.has).reverse.dropWhile blank.has).reverse

end CharClass

end CommitPipeline
