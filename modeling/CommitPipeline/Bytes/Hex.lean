import CommitPipeline.Bytes.BigEndian

/-!
# Hexadecimal text

A byte is written as two digits of base sixteen, the higher half first, in lower case. Reading
takes either case, works on the bytes of the text, and says which rule a text breaks first: an
even number of bytes, then digits only.
-/

namespace CommitPipeline.Hex

/-- The lower-case digit of a number below sixteen. -/
def digit (n : Nat) : Char :=
  if n < 10 then Char.ofNat (0x30 + n) else Char.ofNat (0x57 + n)

/-- The value of the digit that a code of ASCII stands for. -/
def value? (code : Nat) : Option Nat :=
  if 0x30 ≤ code ∧ code ≤ 0x39 then some (code - 0x30)
  else if 0x61 ≤ code ∧ code ≤ 0x66 then some (code - 0x57)
  else if 0x41 ≤ code ∧ code ≤ 0x46 then some (code - 0x37)
  else none

/-- The two digits of a byte. -/
def pair (b : UInt8) : List Char := [digit (b.toNat / 16), digit (b.toNat % 16)]

/-- The digits of a byte string. -/
def digits (bytes : Bytes) : List Char := bytes.flatMap pair

/-- The text of a byte string. -/
def encode (bytes : Bytes) : String := String.ofList (digits bytes)

/-- Why a text is no hexadecimal byte string. -/
inductive Flaw where
  /-- The text has an odd number of bytes. -/
  | oddLength
  /-- A byte of the text, at a position counted from zero, is no digit. -/
  | notDigit (byte : UInt8) (position : Nat)
  deriving DecidableEq, Repr

/-- Reads pairs of digits, the first of them at a given position. -/
def readPairs (position : Nat) : Bytes → Except Flaw Bytes
  | [] => .ok []
  | [_] => .error .oddLength
  | a :: b :: rest =>
    match value? a.toNat, value? b.toNat with
    -- Of two bytes that are no digits the first is named.
    | none, _ => .error (.notDigit a position)
    | some _, none => .error (.notDigit b (position + 1))
    | some hi, some lo =>
      match readPairs (position + 2) rest with
      | .ok bytes => .ok (UInt8.ofNat (16 * hi + lo) :: bytes)
      | .error flaw => .error flaw

/-- Reads a text given by its bytes. -/
def decode (text : Bytes) : Except Flaw Bytes :=
  if text.length % 2 = 1 then .error .oddLength else readPairs 0 text

end CommitPipeline.Hex
