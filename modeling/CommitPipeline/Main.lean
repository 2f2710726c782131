import CommitPipeline.Simulator
import CommitPipeline.Store.Snapshot
import Std.Time.DateTime.Timestamp

/-!
# The simulator's command

Reads the database that the command line names, runs the simulation over it, writes the database
back and prints what the run says.
-/

namespace CommitPipeline.Simulator

/-- The bytes of a file, none if there is no such file. -/
def fileBytes (path : String) : IO ByteArray := do
  try IO.FS.readBinFile path
  catch
    | .noFileOrDirectory .. => return .empty
    | e => throw e

/-- The store of a directory's database, with the path of its file. The directory is made if it is
missing. -/
def openDirectory (directory : String) : IO (String × Except IoCause Store) := do
  IO.FS.createDirAll directory
  let path := s!"{directory}/{Disk.databaseFile}"
  let bytes ← fileBytes path
  return (path, ((String.fromUTF8? bytes).map Store.ofSnapshot).getD (.error .invalidData))

/-- Prints what a run says and gives its exit code. -/
def Run.report (run : Run) : IO UInt32 := do
  for line in run.output do
    IO.println line
  match run.complaint with
  | .lines lines =>
    for line in lines do
      IO.eprintln line
  | .fault f => IO.eprintln f.message
  return UInt32.ofNat run.exit

/-- The run of a command line over the database it names. -/
def runOnFiles (arguments : List String) (filter : Option String) (now : UInt64) : IO Run := do
  match (database arguments).join with
  | none => return run arguments filter now (.ok .empty)
  | some directory =>
    match ← openDirectory directory with
    | (_, .error cause) => return run arguments filter now (.error (.refused (.unreadable cause)))
    | (path, .ok store) =>
      let run := run arguments filter now (.ok store)
      IO.FS.writeFile path run.store.snapshot
      return run

end CommitPipeline.Simulator

/-- Runs the simulator. -/
def main (arguments : List String) : IO UInt32 := do
  let filter ← IO.getEnv "RUST_LOG"
  let now ← Std.Time.Timestamp.now
  let seconds := UInt64.ofNat now.toSecondsSinceUnixEpoch.val.toNat
  (← CommitPipeline.Simulator.runOnFiles arguments filter seconds).report
