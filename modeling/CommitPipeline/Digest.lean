import CommitPipeline.Bytes.Hex
import CommitPipeline.Digest.Blake3
import CommitPipeline.Text.Quoted

/-!
# Digests

A digest is 32 bytes, most often the BLAKE3 hash of something. Its text is 64 lower-case
hexadecimal digits, and `Digest.ofString` reads exactly the texts of 64 such digits in either case.
-/

namespace CommitPipeline

/-- A string of 32 bytes. -/
structure Digest where
  /-- The bytes. -/
  bytes : Bytes
  /-- There are 32 of them. -/
  length_bytes : bytes.length = 32
  deriving DecidableEq

namespace Digest

/-- A digest is given by its bytes. -/
theorem bytes_inj {d e : Digest} : d.bytes = e.bytes ↔ d = e := by
  cases d; cases e; simp

/-- The digest of 32 zero bytes. -/
def zero : Digest := ⟨List.replicate 32 0, by simp⟩

instance : Inhabited Digest := ⟨zero⟩

/-- The hash of a byte string. -/
def of (data : Bytes) : Digest := ⟨Blake3.hash data, Blake3.length_hash data⟩

/-- A byte string as a digest, if it has the right length. -/
def ofBytes? (bytes : Bytes) : Option Digest :=
  if h : bytes.length = 32 then some ⟨bytes, h⟩ else none

/-- Whether all bytes are zero. -/
def isZero (d : Digest) : Bool := d.bytes.all (· == 0)

/-- The 64 digits of a digest. -/
def hex (d : Digest) : String := Hex.encode d.bytes

instance : ToString Digest := ⟨hex⟩

/-- The first four bytes of a digest in a form for people. -/
def short (d : Digest) : String := s!"Hash({Hex.encode (d.bytes.take 4)}...)"

/-- Why a text is no digest. -/
inductive TextError where
  /-- It is no hexadecimal byte string. -/
  | notHex (flaw : Hex.Flaw)
  /-- It has the wrong number of digits. -/
  | wrongLength (digits : Nat)
  deriving DecidableEq, Repr

/-- The text an unreadable digest is reported with. -/
def TextError.message : TextError → String
  | notHex .oddLength => "invalid hex: Odd number of digits"
  | notHex (.notDigit byte position) =>
    s!"invalid hex: Invalid character {Quoted.char (Char.ofNat byte.toNat)} at position {position}"
  | wrongLength digits => s!"expected 64 hex characters, got {digits}"

/-- Reads a digest from the bytes of a text. -/
def ofHex (text : Bytes) : Except TextError Digest :=
  match Hex.decode text with
  | .error flaw => .error (.notHex flaw)
  | .ok bytes =>
    if h : bytes.length = 32 then .ok ⟨bytes, h⟩ else .error (.wrongLength text.length)

/-- Reads a digest from a text. -/
def ofString (text : String) : Except TextError Digest := ofHex text.toUTF8.toList

end Digest

end CommitPipeline
