import CommitPipeline.Block
import CommitPipeline.Json.Printer
import CommitPipeline.Json.Reader

/-!
# The JSON forms of rounds, digests, headers, blocks and changes

A round is a number, bytes are arrays of numbers, a digest is an array of 32 of them and, when
read, also a string of 32 bytes. A record is written as an object with its fields in a fixed
order. It is read from an object with each of its fields once, in any order and among others, or
from an array of exactly its fields.
-/

namespace CommitPipeline.Json

/-- A type with a JSON form. -/
class Form (α : Type) where
  /-- The form of a value. -/
  write : α → Json
  /-- The value of a form. -/
  read : Json → Option α

/-- A 64-bit word. -/
def readWord : Json → Option UInt64
  | nat n => Word.ofNat? n
  | _ => none

/-- A byte. -/
def readByte : Json → Option UInt8
  | nat n => if n < UInt8.size then some (UInt8.ofNat n) else none
  | _ => none

/-- An array of values of one kind. -/
def readArray {α : Type} (read : Json → Option α) : Json → Option (List α)
  | arr items => items.mapM read
  | _ => none

/-- The form of bytes. -/
def writeBytes (bytes : Bytes) : Json := arr (bytes.map fun b => nat b.toNat)

/-- Bytes from their form. -/
def readBytes : Json → Option Bytes := readArray readByte

/-- A value or nothing. -/
def readOption {α : Type} (read : Json → Option α) : Json → Option (Option α)
  | null => some none
  | j => (read j).map some

/-- An object with given fields. -/
def record (fields : List (String × Json)) : Json :=
  obj (fields.map fun field => (Piece.ofString field.1, field.2))

/-- The names of fields as texts. -/
def fieldNames (fields : List (List Piece × Json)) : Option (List (List Char × Json)) :=
  fields.mapM fun field => (Piece.text? field.1).map fun name => (name, field.2)

/-- The one value of a field. -/
def single (fields : List (List Char × Json)) (name : String) : Option Json :=
  match fields.filter (fun field => field.1 = name.toList) with
  | [field] => some field.2
  | _ => none

/-- The values of the named fields of a record, in the order of the names. -/
def members (names : List String) : Json → Option (List Json)
  | arr items => if items.length = names.length then some items else none
  | obj fields =>
    (fieldNames fields).bind fun fields =>
      if fields.all fun field => names.any (·.toList = field.1) || field.2.isSound then
        names.mapM (single fields)
      else none
  | _ => none

instance : Form Round where
  write r := nat r.toNat
  read j := (readWord j).map Round.mk

instance : Form Digest where
  write d := writeBytes d.bytes
  read
    | str pieces => Digest.ofBytes? (Piece.bytes pieces)
    | j => (readBytes j).bind Digest.ofBytes?

instance : Form Header where
  write h := record [("round", Form.write h.round), ("branch", Form.write h.branch),
    ("timestamp", nat h.timestamp.toNat)]
  read j :=
    match members ["round", "branch", "timestamp"] j with
    | some [round, branch, timestamp] => do
      let round ← Form.read round
      let branch ← Form.read branch
      let timestamp ← readWord timestamp
      some { round, branch, timestamp }
    | _ => none

instance : Form Block where
  write b := record [("header", Form.write b.header), ("txns", arr (b.txns.map writeBytes))]
  read j :=
    match members ["header", "txns"] j with
    | some [header, txns] => do
      let header ← Form.read header
      let txns ← readArray readBytes txns
      some { header, txns }
    | _ => none

/-- The form of a key with its new value. -/
def writePair (w : Bytes × Option Bytes) : Json :=
  arr [writeBytes w.1, (w.2.map writeBytes).getD null]

/-- A key with its new value. -/
def readPair : Json → Option (Bytes × Option Bytes)
  | arr [key, value] => do
    let key ← readBytes key
    let value ← readOption readBytes value
    some (key, value)
  | _ => none

instance : Form Delta where
  write d := record [("round", Form.write d.round), ("writes", arr (d.writes.map writePair))]
  read j :=
    match members ["round", "writes"] j with
    | some [round, writes] => do
      let round ← Form.read round
      let writes ← readArray readPair writes
      some { round, writes }
    | _ => none

/-- The text of a value. -/
def encode {α : Type} [Form α] (a : α) : String := (Form.write a).render

/-- The value of a text. -/
def decode (α : Type) [Form α] (text : String) : Option α := (parse text.toList).bind Form.read

end CommitPipeline.Json
