import CommitPipeline.Pipeline.Load
import CommitPipeline.Pipeline.Worker
import CommitPipeline.Simulator.Arguments
import CommitPipeline.Simulator.LogFilter.Reader
import CommitPipeline.Text.Lines
import CommitPipeline.Tracker.Member
import CommitPipeline.Tracker.Scripted

/-!
# The simulator

The simulator feeds blocks of its own making through a pipeline and reports when each round is
readable in memory and when it is durable. Time is simulated: a block is applied, after the delay
its round is reported, and the cycle that follows takes no time.

The module introduces:

* `Run` — exit code, printed lines, what is said about a failure, and the store afterwards;
* `simulate` — a run with given arguments over a store;
* `run` — a whole run from its command line.
-/

namespace CommitPipeline.Simulator

/-- What a run says about its failure. -/
inductive Complaint where
  /-- Lines of text; none after a run that went well. -/
  | lines (lines : List String)
  /-- The run was cut short. -/
  | fault (fault : Fault)
  deriving DecidableEq, Repr

/-- A complaint behind earlier lines. A fault is reported by itself. -/
def Complaint.after (earlier : List String) : Complaint → Complaint
  | lines later => lines (earlier ++ later)
  | fault f => fault f

/-- How a run ended. -/
structure Run where
  /-- The exit code. -/
  exit : Nat
  /-- The printed lines. -/
  output : List String
  /-- What is said about a failure. -/
  complaint : Complaint
  /-- The content of the database afterwards. -/
  store : Store

/-- The pipeline of a simulation. -/
abbrev Simulated := Pipeline (Member Scripted)

/-- What lies behind an error. -/
def causes : PipelineError → List String
  | .store e => [e.message]
  | _ => []

/-- The lines for an error with what lies behind it. -/
def errorLines (message : String) (causes : List String) : List String :=
  s!"Error: {message}" ::
    if causes.isEmpty then [] else "" :: "Caused by:" :: causes.map ("    " ++ ·)

/-- The lines for an error of the store. -/
def storeErrorLines (e : StoreError) : List String := errorLines e.message e.causes

/-- The lines for an error of the pipeline. -/
def pipelineErrorLines (e : PipelineError) : List String := errorLines e.message (causes e)

/-- The lines of the log that a filter prints. -/
def printed (filter : LogFilter) (p : Simulated) : List String :=
  (p.effects.journal.events.filter filter.prints).map Event.line

/-- A run that ended by a stop. -/
def Run.ofStop (filter : LogFilter) (p : Simulated) : Stop → Run
  | .error e =>
    { exit := 1, output := printed filter p, complaint := .lines (pipelineErrorLines e),
      store := p.store }
  | .fault f =>
    { exit := 101, output := printed filter p, complaint := .fault f, store := p.store }

/-- A simulation under way. -/
structure Progress where
  /-- The pipeline. -/
  pipeline : Simulated
  /-- The ledger. -/
  chain : Chain
  /-- Milliseconds since the start. -/
  clock : Nat := 0
  /-- When each round was readable in memory, the last one first. -/
  applied : List (Round × Nat) := []
  /-- The durable rounds with the times they were reached, the last one first. -/
  landed : List (Round × Nat) := []

/-- Applies blocks one by one, reporting each round after the delay. -/
def applyBlocks (delayMs : UInt64) (now : UInt64) : Nat → Progress → Except Fault Unit × Progress
  | 0, s => (.ok (), s)
  | n + 1, s =>
    match s.chain.append now with
    | (.error f, chain) => (.error f, { s with chain })
    | (.ok (block, delta), chain) =>
      match s.pipeline.newBlock block delta with
      | (.error f, pipeline) => (.error f, { s with chain, pipeline })
      | (.ok (), pipeline) =>
        let applied := (block.round, s.clock) :: s.applied
        -- The delay passes between the block and its report; the cycle takes no time.
        let clock := s.clock + delayMs.toNat
        match pipeline.report block.round with
        | (.error f, pipeline) => (.error f, { s with chain, pipeline, applied, clock })
        | (.ok _, pipeline) =>
          let pipeline := pipeline.settle
          let landed := (pipeline.durable, clock) :: s.landed
          applyBlocks delayMs now n { pipeline, chain, clock, applied, landed }

/-- The lines about each applied round, lowest round first. -/
def roundEvents (s : Progress) : List Event :=
  s.applied.reverse.map fun (r, inMemory) =>
    match s.landed.reverse.find? (fun entry => r ≤ entry.1) with
    | some (_, durable) => .roundReleased r inMemory durable
    | none => .roundNotDurable r inMemory s.pipeline.durable

/-- The tail of a simulated pipeline. -/
def tail? (p : Simulated) : Option Tail :=
  p.trackers.findSome? fun
    | .tail t => some t
    | _ => none

/-- The end of a run: what the tail knows of the durable round, then everything is closed. -/
def wrapUp (filter : LogFilter) (p : Simulated) : Run :=
  let head : Except StoreError (Option Summary) := match tail? p with
    | none => .ok none
    | some t => t.entry p.store p.durable
  match head with
  | .error e =>
    { exit := 1, output := printed filter p, complaint := .lines (storeErrorLines e),
      store := p.store }
  | .ok head =>
    let p := match head with
      | some summary => p.log (.tailHead p.durable (Hex.encode (summary.digest.bytes.take 8)))
      | none => p
    let p := (p.log (.simulationFinished p.durable)).stopWorker
    match p.close with
    | (.error f, p) => .ofStop filter p (.fault f)
    | (.ok (), p) =>
      { exit := 0, output := printed filter p, complaint := .lines [], store := p.store }

/-- The blocks of a run and what is said about them. -/
def feed (filter : LogFilter) (rounds delayMs now : UInt64) (chain : Chain) (p : Simulated) :
    Run :=
  match applyBlocks delayMs now rounds.toNat { pipeline := p, chain } with
  | (.error f, s) => .ofStop filter s.pipeline (.fault f)
  | (.ok (), s) => wrapUp filter ((roundEvents s).foldl Pipeline.log s.pipeline)

/-- The longest time in milliseconds that a round is waited for. -/
def grace (rounds delayMs : UInt64) : Except Fault UInt64 :=
  (Word.mul rounds delayMs).bind fun ms => Word.add ms 1000

/-- A loaded pipeline with its worker, up to the end of the run. Before the first block a watch is
set on each round up to the last, which takes the round behind the last to exist. -/
def follow (filter : LogFilter) (a : Arguments) (now : UInt64) (chain : Chain) (p : Simulated) :
    Run :=
  let rounds := a.rounds.getD 32
  let delayMs := a.commitDelayMs.getD 25
  match chain.latest.plus rounds with
  | .error f => .ofStop filter p (.fault f)
  | .ok last =>
    let p := p.log (.simulationStarted chain.latest last)
    match (grace rounds delayMs).bind fun _ => last.next with
    | .error f => .ofStop filter p (.fault f)
    | .ok _ => feed filter rounds delayMs now chain p

/-- A run over a store; `now` is the time stamp of its blocks. -/
def simulate (filter : LogFilter) (a : Arguments) (now : UInt64) (store : Store) : Run :=
  let retain := a.retain.getD 4
  let config : Config := { maxRounds := a.maxRounds.getD 16, tailRetain := retain }
  let trackers := [.memory {}, .durable {}, .tail (.keeping retain)]
  match Pipeline.open? trackers config store {} with
  | .error (.error e) =>
    { exit := 1, output := [], complaint := .lines (pipelineErrorLines e), store }
  | .error (.fault f) => { exit := 101, output := [], complaint := .fault f, store }
  | .ok p =>
    let chain := Chain.startingAt store.round
    match p.load chain.view with
    | (.error stop, p) => .ofStop filter p stop
    | (.ok (), p) =>
      match p.startWorker with
      | .error e => .ofStop filter p (.error e)
      | .ok p => follow filter a now chain p

/-- The version line. -/
def versionLine : String := "roundtrack-sim 0.1.0"

/-- The lines of the help. -/
def helpLines : List String :=
  "Usage: roundtrack-sim [OPTIONS]" :: "" :: "Options:" ::
    Setting.all.map (fun s => s!"      --{s.name} <VALUE>") ++
      ["  -v, --verbose", "  -h, --help", "  -V, --version"]

/-- The filter of a run, with remarks about it: given by a text, or else by the verbosity. -/
def filterFor (text : Option String) (verbosity : Nat) :
    Except Fault (LogFilter × List String) :=
  match text with
  | some text => (FilterText.read text).map fun said => (said.filter, said.remarks)
  | none => .ok (.ofVerbosity verbosity, [])

/-- The database that a command line names: a directory, or none for one in memory. Nothing if the
command line asks for no simulation. -/
def database (arguments : List String) : Option (Option String) :=
  match Request.ofArguments arguments with
  | .run a => some a.dataDir
  | _ => none

/-- A run that found its database or did not. -/
def simulateOpened (filter : LogFilter) (a : Arguments) (now : UInt64) :
    Except OpenFailure Store → Run
  | .ok store => simulate filter a now store
  | .error (.refused e) =>
    { exit := 1, output := [], complaint := .lines (storeErrorLines e), store := .empty }
  | .error (.fault f) => { exit := 101, output := [], complaint := .fault f, store := .empty }

/-- A whole run, with what came of opening the database that its command line names. -/
def run (arguments : List String) (filter : Option String) (now : UInt64)
    (opened : Except OpenFailure Store) : Run :=
  let store := opened.toOption.getD .empty
  match Request.ofArguments arguments with
  | .misuse e => { exit := 2, output := [], complaint := .lines [e.message], store }
  | .version => { exit := 0, output := [versionLine], complaint := .lines [], store }
  | .help => { exit := 0, output := helpLines, complaint := .lines [], store }
  | .run a =>
    match filterFor filter a.verbosity with
    | .error f => { exit := 101, output := [], complaint := .fault f, store }
    | .ok (filter, remarks) =>
      let run := simulateOpened filter a now opened
      { run with complaint := run.complaint.after (remarks.flatMap Lines.ofText) }

end CommitPipeline.Simulator
