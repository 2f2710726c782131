import CommitPipeline.Json.Form
import CommitPipeline.Store.Disk.Database

/-!
# Snapshots

The text that the file of a database holds while nobody has it open: a record of the durable
round and of the tables, each a name with its rows. Names are written as their bytes.

The module introduces:

* `Store.snapshot` — the text of a store;
* `Store.ofSnapshot` — the store of a text, where a text without characters is an empty store.
-/

namespace CommitPipeline

namespace Json

/-- The form of a row. -/
def writeRow (row : Round × Bytes) : Json := arr [Form.write row.1, writeBytes row.2]

/-- A row from its form. -/
def readRow : Json → Option (Round × Bytes)
  | arr [round, bytes] => do
    let round ← Form.read round
    let bytes ← readBytes bytes
    some (round, bytes)
  | _ => none

/-- The form of a table. -/
def writeTable (entry : TableName × RoundTable Bytes) : Json :=
  arr [writeBytes entry.1.text.toUTF8.toList, arr (entry.2.rows.map writeRow)]

/-- The name of a table from its form. -/
def readTableName (j : Json) : Option TableName := do
  let bytes ← readBytes j
  let text ← String.fromUTF8? ⟨bytes.toArray⟩
  (TableName.ofString text).toOption

/-- A table from its form. Of two rows for one round the later one counts. -/
def readTable : Json → Option (TableName × RoundTable Bytes)
  | arr [name, rows] => do
    let name ← readTableName name
    let rows ← readArray readRow rows
    some (name, rows.foldl (fun table row => table.insert row.1 row.2) .empty)
  | _ => none

instance : Form Store where
  write s := record [("round", Form.write s.round), ("tables", arr (s.tables.map writeTable))]
  read j :=
    match members ["round", "tables"] j with
    | some [round, tables] => do
      let round ← Form.read round
      let tables ← readArray readTable tables
      some { round, tables }
    | _ => none

end Json

namespace Store

/-- The text of a store. -/
def snapshot (s : Store) : String := Json.encode s

/-- The store of a text. -/
def ofSnapshot (text : String) : Except IoCause Store :=
  if text = "" then .ok .empty
  else
    match Json.decode Store text with
    | some s => .ok s
    | none => .error .invalidData

end Store

end CommitPipeline
