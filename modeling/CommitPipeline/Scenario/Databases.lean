import CommitPipeline.Scenario.Data
import CommitPipeline.Store.Disk.Database

/-!
# Scenarios on databases

Databases kept by name, in memory or on a disk of their own.
-/

namespace CommitPipeline.DatabaseScenario

/-- An open database. -/
structure OpenDatabase where
  /-- Its file, if it is on the disk. -/
  file : Option Path
  /-- Its committed content. -/
  store : Store

/-- What a scenario works on. -/
structure State where
  /-- Whether databases are kept on the disk. -/
  onDisk : Bool
  /-- The disk. -/
  disk : Disk := .withHome ["tmp", "scenario"]
  /-- The open databases by name. -/
  databases : Named OpenDatabase := []

/-- A step of a scenario. -/
inductive Step where
  /-- Opens the database of a directory under a name. -/
  | openAs (name : String) (directory : String)
  /-- Closes a database. -/
  | close (name : String)
  /-- Writes a plain file. -/
  | makeFile (path : String) (content : Bytes)
  /-- Asks whether there is anything at a path. -/
  | hasPath (path : String)
  /-- A step on an open database. -/
  | data (name : String) (step : DataStep)

/-- Closes an open database. -/
def release (db : OpenDatabase) (disk : Disk) : Disk :=
  match db.file with
  | none => disk
  | some file => disk.closeDatabase file db.store

/-- Keeps an opened database under a name. The one that was there is closed. -/
def State.install (s : State) (name : String) (db : OpenDatabase) (disk : Disk) : State :=
  let disk := match s.databases.get? name with
    | none => disk
    | some old => release old disk
  { s with disk, databases := s.databases.keep name db }

/-- Runs a step. -/
def run (step : Step) (s : State) : Answer × State :=
  match step with
  | .openAs name directory =>
    if s.onDisk then
      match Disk.openDatabase directory s.disk with
      | (.error failure, disk) => (.openFailure failure, { s with disk })
      | (.ok (store, file), disk) =>
        -- The old database is let go of only now: its file may not be opened under its own name.
        (.verdict .opened, s.install name { file := some file, store } disk)
    else (.verdict .opened, s.install name { file := none, store := .empty } s.disk)
  | .close name =>
    match s.databases.get? name with
    | none => (.flag false, s)
    | some db =>
      (.flag true, { s with disk := release db s.disk, databases := s.databases.drop name })
  | .makeFile path content =>
    (.nothing, { s with disk := s.disk.writeFile path (.plain content) })
  | .hasPath path => (.flag (s.disk.has path), s)
  | .data name step =>
    match s.databases.get? name with
    | none => (.unknown, s)
    | some db =>
      let (answer, store) := step.run db.store
      (answer, { s with databases := s.databases.keep name { db with store } })

/-- Runs a scenario. -/
def runAll (s : State) : List Step → List Answer
  | [] => []
  | step :: rest =>
    let (answer, s) := run step s
    answer :: runAll s rest

end CommitPipeline.DatabaseScenario
