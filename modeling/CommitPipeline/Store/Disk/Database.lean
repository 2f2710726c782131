import CommitPipeline.Store.Disk
import CommitPipeline.Store.Disk.Header

/-!
# Databases on a disk

A database lives in a file of a fixed name inside its directory and is locked while it is open.

The module introduces:

* `Disk.openDatabase` — opens the database of a directory, making what is missing;
* `Disk.closeDatabase` — puts the content of an open database back and unlocks it.
-/

namespace CommitPipeline.Disk

/-- The name of a database's file inside its directory. -/
def databaseFile : String := "tracker.db"

/-- How the reading of bytes fails that are no database. What begins like a database is read on, and
breaks off early if it is too short for a header. -/
def plainFailure (bytes : Bytes) : OpenFailure :=
  if !FileHeader.mark.isPrefixOf bytes then .refused (.unreadable .invalidData)
  else
    match FileHeader.ofBytes? bytes with
    | none => .refused (.unreadable .truncated)
    | some header => header.failure bytes.length

/-- The database in a file. A file that holds nothing counts as an empty database. -/
def readDatabase : Option FileBody → Except OpenFailure Store
  | none | some (.plain []) => .ok .empty
  | some (.plain bytes) => .error (plainFailure bytes)
  | some (.database s) => .ok s

/-- Opens the database in the file at a path. -/
def openFile (p : Path) : Act OpenFailure Disk Store := fun d =>
  -- What is in the way on the disk is found before the lock is.
  if d.isDirectory p then (.error (.refused (.unreadable .isADirectory)), d)
  else if d.locked.contains p then (.error (.refused .alreadyOpen), d)
  else
    match readDatabase (d.file? p) with
    | .error failure => (.error failure, d)
    | .ok s => (.ok s, { d.putFile p (.database s) with locked := p :: d.locked })

/-- Makes the directory of a text unless there is something. -/
def provide (directory : String) : Act IoCause Disk Unit := fun d =>
  if d.has directory then (.ok (), d)
  else
    match d.route directory with
    | .error cause => (.error cause, d)
    | .ok r => makeDirectories r d

/-- Opens the database of a directory. Gives its content and the path of its file. -/
def openDatabase (directory : String) : Act OpenFailure Disk (Store × Path) := fun d =>
  match provide directory d with
  | (.error cause, d) => (.error (.refused (.io cause)), d)
  | (.ok (), d) =>
    match (d.route directory).bind fun r => d.walk (r.child databaseFile) with
    | .error cause => (.error (.refused (.unreadable cause)), d)
    | .ok p =>
      let (result, d) := openFile p d
      (result.map (·, p), d)

/-- Puts the content of an open database back into its file, and unlocks the file. -/
def closeDatabase (d : Disk) (p : Path) (s : Store) : Disk :=
  { d.putFile p (.database s) with locked := d.locked.filter (· ≠ p) }

end CommitPipeline.Disk
