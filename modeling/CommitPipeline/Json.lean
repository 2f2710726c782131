import CommitPipeline.Bytes.BigEndian

/-!
# JSON values

A value as its text gives it. Strings keep which characters were written as they are and which by
an escape, since the users of a value differ in what they allow inside a string; numbers that are
plain decimals without sign, fraction and exponent are told apart from all others.

The module introduces:

* `Json`, `Json.Piece` — values and the pieces of their strings;
* `Json.isSound` — whether a value may stand where its content is ignored;
* `Json.Piece.text?`, `Json.Piece.bytes` — a string as a text and as bytes.
-/

namespace CommitPipeline

namespace Json

/-- A piece of a string. -/
inductive Piece where
  /-- A character written as it is. -/
  | raw (c : Char)
  /-- A unit of sixteen bits, written by an escape. -/
  | escaped (unit : UInt16)
  deriving DecidableEq, Repr

end Json

/-- A JSON value. -/
inductive Json where
  | null
  | bool (value : Bool)
  /-- A number written in decimal digits alone. -/
  | nat (value : Nat)
  /-- Any other number, by its text. -/
  | number (text : List Char)
  | str (pieces : List Json.Piece)
  | arr (items : List Json)
  | obj (fields : List (List Json.Piece × Json))
  deriving Repr

namespace Json

namespace Piece

/-- Whether a unit is the first half of a pair that stands for one character. -/
def isLead (unit : UInt16) : Bool := 0xD800 ≤ unit.toNat && unit.toNat ≤ 0xDBFF

/-- Whether a unit is the second half of such a pair. -/
def isTrail (unit : UInt16) : Bool := 0xDC00 ≤ unit.toNat && unit.toNat ≤ 0xDFFF

/-- The number of the character that a pair stands for. -/
def joined (lead trail : UInt16) : Nat :=
  0x10000 + (lead.toNat - 0xD800) * 0x400 + (trail.toNat - 0xDC00)

/-- Whether a piece is a control character written as it is. -/
def isRawControl : Piece → Bool
  | raw c => c.toNat < 0x20
  | escaped _ => false

/-- The text of a string: no control character is written as it is, and no half of a pair stands
alone. -/
def text? : List Piece → Option (List Char)
  | [] => some []
  | raw c :: rest => if c.toNat < 0x20 then none else (text? rest).map (c :: ·)
  | escaped u :: escaped v :: rest =>
    -- Two halves of a pair are one character only if they follow each other.
    if isLead u then
      if isTrail v then (text? rest).map (Char.ofNat (joined u v) :: ·) else none
    else if isTrail u then none
    else (text? (escaped v :: rest)).map (Char.ofNat u.toNat :: ·)
  | escaped u :: rest =>
    if isLead u || isTrail u then none else (text? rest).map (Char.ofNat u.toNat :: ·)

/-- The bytes of a character given by its number, whether it is half of a pair or not. -/
def utf8 (n : Nat) : Bytes :=
  let low (shift : Nat) : UInt8 := UInt8.ofNat (0x80 + n / shift % 0x40)
  if n < 0x80 then [UInt8.ofNat n]
  else if n < 0x800 then [UInt8.ofNat (0xC0 + n / 0x40), low 1]
  else if n < 0x10000 then [UInt8.ofNat (0xE0 + n / 0x1000), low 0x40, low 1]
  else [UInt8.ofNat (0xF0 + n / 0x40000), low 0x1000, low 0x40, low 1]

/-- The bytes of a string; control characters and halves of pairs that stand alone are taken. -/
def bytes : List Piece → Bytes
  | [] => []
  | raw c :: rest => utf8 c.toNat ++ bytes rest
  | escaped u :: escaped v :: rest =>
    if isLead u && isTrail v then utf8 (joined u v) ++ bytes rest
    else utf8 u.toNat ++ bytes (escaped v :: rest)
  | escaped u :: rest => utf8 u.toNat ++ bytes rest

/-- The pieces of a text, all written as they are. -/
def ofString (s : String) : List Piece := s.toList.map raw

end Piece

mutual

/-- Whether no string of a value has a control character written as it is. -/
def isSound : Json → Bool
  | null | bool _ | nat _ | number _ => true
  | str pieces => !pieces.any Piece.isRawControl
  | arr items => areSound items
  | obj fields => fieldsAreSound fields

/-- Whether all values of a list are sound. -/
def areSound : List Json → Bool
  | [] => true
  | item :: rest => item.isSound && areSound rest

/-- Whether all names and values of a list of fields are sound. -/
def fieldsAreSound : List (List Piece × Json) → Bool
  | [] => true
  | (name, value) :: rest =>
    !name.any Piece.isRawControl && value.isSound && fieldsAreSound rest

end

end Json

end CommitPipeline
