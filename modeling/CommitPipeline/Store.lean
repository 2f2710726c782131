import CommitPipeline.Bytes.BigEndian
import CommitPipeline.Error
import CommitPipeline.Round.Table

/-!
# The store

What a database holds: the durable round and, for every table name, rows of bytes keyed by round.
A table exists as soon as something asks for it, so a name without rows is an empty table.

A transaction works on a copy of the store. `Store.transact` puts the copy in the place of the
store if the work ends well and drops it otherwise.
-/

namespace CommitPipeline

/-- The name of the table that holds the durable round under a text key. -/
def metaTable : String := "meta"

/-- The name of a table keyed by rounds: neither empty nor that of the table keyed by texts. -/
structure TableName where
  /-- The name. -/
  text : String
  /-- It is not empty. -/
  ne_empty : text ≠ ""
  /-- It is not the table keyed by texts. -/
  ne_meta : text ≠ metaTable
  deriving DecidableEq

/-- Why a table of rounds cannot be opened. -/
inductive TableRefusal where
  /-- The name is empty. -/
  | unnamed
  /-- The name is that of the table keyed by texts. -/
  | keyedByText (name : String)
  deriving DecidableEq, Repr

/-- A text as the name of a table of rounds. -/
def TableName.ofString (name : String) : Except TableRefusal TableName :=
  if h : name = "" then .error .unnamed
  else if h' : name = metaTable then .error (.keyedByText name)
  else .ok ⟨name, h, h'⟩

/-- A refused table name ends an operation by a fault if it is empty, by an error otherwise. -/
def TableRefusal.stop : TableRefusal → Stop
  | unnamed => .fault .unnamedTable
  | keyedByText name => .error (.store (.keyedByText name))

/-- What a database holds. -/
structure Store where
  /-- The round up to which the state of the trackers is durable. -/
  round : Round := .zero
  /-- The tables that were written to, by name. -/
  tables : List (TableName × RoundTable Bytes) := []
  deriving DecidableEq

namespace Store

/-- A database without content. -/
def empty : Store := {}

instance : Inhabited Store := ⟨empty⟩

/-- The rows of a table. -/
def table (s : Store) (name : TableName) : RoundTable Bytes :=
  ((s.tables.find? (fun entry => entry.1 = name)).map Prod.snd).getD .empty

/-- Puts a table into a list of tables. -/
def putTable (name : TableName) (rows : RoundTable Bytes) :
    List (TableName × RoundTable Bytes) → List (TableName × RoundTable Bytes)
  | [] => [(name, rows)]
  | entry :: rest =>
    if entry.1 = name then (name, rows) :: rest else entry :: putTable name rows rest

/-- The store with other rows in one table. -/
def setTable (s : Store) (name : TableName) (rows : RoundTable Bytes) : Store :=
  { s with tables := putTable name rows s.tables }

/-- The store with another durable round. -/
def setRound (s : Store) (round : Round) : Store := { s with round }

/-- The row of a round. -/
def get? (s : Store) (name : TableName) (r : Round) : Option Bytes := (s.table name).get? r

/-- The rows of the rounds from `lo` to `hi`, lowest first. -/
def rowsBetween (s : Store) (name : TableName) (lo hi : Round) : List (Round × Bytes) :=
  ((s.table name).between lo hi).rows

/-- The store with a row for a round. -/
def put (s : Store) (name : TableName) (r : Round) (value : Bytes) : Store :=
  s.setTable name ((s.table name).insert r value)

/-- The store without the rows of a table below a floor, and how many rows went. -/
def pruneBelow (s : Store) (name : TableName) (floor : Round) : Nat × Store :=
  let rows := s.table name
  let kept := rows.atLeast floor
  (rows.size - kept.size, s.setTable name kept)

/-- Runs work on a copy of the store; the copy replaces the store if the work gives a result. What
the work leaves besides the copy is kept in either case. -/
def transact {ε σ α : Type} (s : Store) (work : Store → Except ε α × σ × Store) :
    Except ε α × σ × Store :=
  match work s with
  | (.ok a, left, s') => (.ok a, left, s')
  | (.error e, left, _) => (.error e, left, s)

@[simp]
theorem table_empty (name : TableName) : empty.table name = .empty := rfl

/-- The durable round is apart from the tables. -/
@[simp]
theorem table_setRound (s : Store) (r : Round) (name : TableName) :
    (s.setRound r).table name = s.table name := rfl

/-- A table that is set is the only one that changes. -/
theorem table_setTable (s : Store) (name other : TableName) (rows : RoundTable Bytes) :
    (s.setTable name rows).table other = if other = name then rows else s.table other := by
  obtain ⟨round, tables⟩ := s
  unfold setTable table
  simp only
  induction tables with
  | nil => by_cases h : other = name <;> simp [putTable, h, Ne.symm]
  | cons entry rest ih =>
    rw [putTable]
    split
    · next hentry =>
      by_cases h : other = name
      · simp [h]
      · simp [h, Ne.symm h, hentry]
    · next hentry =>
      by_cases h : entry.1 = other
      · subst h
        simp [hentry]
      · simpa [List.find?_cons, h] using ih

/-- A row that is put is the one row of its table and round. -/
theorem get?_put (s : Store) (name other : TableName) (r q : Round) (value : Bytes) :
    (s.put name r value).get? other q =
      if other = name ∧ q = r then some value else s.get? other q := by
  unfold put get?
  rw [table_setTable]
  by_cases h : other = name
  · subst h
    simp [RoundTable.get?_insert]
  · simp [h]

/-- Pruning takes the rows of one table below the floor, and nothing else. -/
theorem get?_pruneBelow (s : Store) (name other : TableName) (floor q : Round) :
    (s.pruneBelow name floor).2.get? other q =
      if other = name ∧ q < floor then none else s.get? other q := by
  unfold pruneBelow get?
  simp only
  rw [table_setTable]
  by_cases h : other = name
  · subst h
    by_cases hq : q < floor
    · have : ¬ floor ≤ q := Nat.not_le.mpr hq
      simp [RoundTable.get?_atLeast, hq, this]
    · have : floor ≤ q := Nat.le_of_not_lt hq
      simp [RoundTable.get?_atLeast, hq, this]
  · simp [h]

end Store

end CommitPipeline
