import CommitPipeline.Scenario.Answer

/-!
# Steps on a store

Reading steps look at the committed content. A transaction step runs steps of its own on a
working copy; the first of them that is refused ends them, unless it is marked as tolerated.
Reading steps inside a transaction still look at the committed content, and never end it.
-/

namespace CommitPipeline

/-- A reading step. -/
inductive Query where
  /-- The durable round. -/
  | round
  /-- The row of a round. -/
  | get (table : String) (round : Round)
  /-- The rows of a span of rounds. -/
  | rows (table : String) (lo hi : Round)

/-- Reads from a store. -/
def Query.run (s : Store) : Query → Except TableRefusal Answer
  | round => .ok (.round s.round)
  | get table r =>
    (TableName.ofString table).map fun name => .option .bytes (s.get? name r)
  | rows table lo hi =>
    (TableName.ofString table).map fun name => .rows (s.rowsBetween name lo hi)

/-- The answer to a reading step. -/
def Query.answer (s : Store) (q : Query) : Answer :=
  match q.run s with
  | .ok a => a
  | .error refusal => .refusedTable refusal

/-- A step inside a transaction. -/
inductive TxStep where
  /-- Sets the durable round. -/
  | setRound (round : Round)
  /-- The durable round as the transaction sees it. -/
  | round
  /-- Writes a row. -/
  | put (table : String) (round : Round) (value : Bytes)
  /-- The row of a round as the transaction sees it. -/
  | get (table : String) (round : Round)
  /-- Deletes the rows below a floor. -/
  | prune (table : String) (floor : Round)

/-- Runs a step of a transaction on its working copy. -/
def TxStep.run (s : Store) : TxStep → Except TableRefusal (Answer × Store)
  | setRound r => .ok (.nothing, s.setRound r)
  | round => .ok (.round s.round, s)
  | put table r value =>
    (TableName.ofString table).map fun name => (.nothing, s.put name r value)
  | get table r =>
    (TableName.ofString table).map fun name => (.option .bytes (s.get? name r), s)
  | prune table floor =>
    (TableName.ofString table).map fun name =>
      let (pruned, s) := s.pruneBelow name floor
      (.number pruned, s)

/-- A step in the list of a transaction. -/
inductive TxItem where
  /-- A step on the working copy, tolerated if it is refused or not. -/
  | inside (step : TxStep) (tolerated : Bool)
  /-- A reading step on the committed content. -/
  | outside (query : Query)

/-- How the steps of a transaction ran. -/
structure TxRun where
  /-- The answers, up to the first refusal that was not tolerated. -/
  answers : List Answer
  /-- The table that refused, if a refusal ended the steps. -/
  refused : Option String
  /-- The working copy at the end. -/
  working : Store

/-- Runs the steps of a transaction. An empty table name is a fault and leaves no answer. -/
def TxRun.of (committed : Store) : Store → List TxItem → Except Fault TxRun
  | working, [] => .ok { answers := [], refused := none, working }
  | working, .outside q :: rest =>
    match q.run committed with
    | .error .unnamed => .error .unnamedTable
    | .error (.keyedByText name) =>
      (TxRun.of committed working rest).map fun run =>
        { run with answers := .storeError (.keyedByText name) :: run.answers }
    | .ok a => (TxRun.of committed working rest).map fun run =>
        { run with answers := a :: run.answers }
  | working, .inside step tolerated :: rest =>
    match step.run working with
    | .error .unnamed => .error .unnamedTable
    | .error (.keyedByText name) =>
      let refusal : Answer := .storeError (.keyedByText name)
      if tolerated then
        (TxRun.of committed working rest).map fun run =>
          { run with answers := refusal :: run.answers }
      else .ok { answers := [refusal], refused := some name, working }
    | .ok (a, working) => (TxRun.of committed working rest).map fun run =>
        { run with answers := a :: run.answers }

/-- How a transaction is brought to its end. -/
inductive TxEnd where
  /-- The work ends well and is committed, unless a step was refused. -/
  | ok
  /-- The work asks for a roll-back itself. -/
  | err
  /-- Committed in any case. -/
  | commit
  /-- Rolled back in any case. -/
  | rollback
  /-- Left without an end, which is a roll-back too. -/
  | drop
  deriving DecidableEq, Repr

/-- How a transaction ended, and whether its working copy is committed. -/
def TxEnd.finish (e : TxEnd) (refused : Option String) : Answer × Bool :=
  match e, refused with
  | .ok, none => (.verdict .ok, true)
  | .err, none => (.verdict .asked, false)
  | .ok, some name | .err, some name => (.storeError (.keyedByText name), false)
  | .commit, _ => (.verdict .committed, true)
  | .rollback, none => (.verdict .rolledBack, false)
  | .rollback, some _ => (.verdict .rolledBackAfterError, false)
  | .drop, _ => (.verdict .dropped, false)

/-- A step on a store. -/
inductive DataStep where
  /-- A reading step. -/
  | query (query : Query)
  /-- A transaction. -/
  | transaction (steps : List TxItem) (finish : TxEnd)

/-- Runs a step on a store. -/
def DataStep.run (s : Store) : DataStep → Answer × Store
  | query q => (q.answer s, s)
  | transaction steps finish =>
    match TxRun.of s s steps with
    | .error f => (.fault f, s)
    | .ok run =>
      let (answer, commits) := finish.finish run.refused
      (.transaction run.answers answer, if commits then run.working else s)

end CommitPipeline
