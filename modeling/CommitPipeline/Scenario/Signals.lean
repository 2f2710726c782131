import CommitPipeline.Scenario.Watching

/-!
# Scenarios on signals

Signals kept by name, with handles and futures on them.
-/

namespace CommitPipeline.SignalScenario

/-- What a scenario works on. -/
structure State where
  /-- All signals. -/
  board : SignalBoard := {}
  /-- Signals by name; several names may stand for one signal. -/
  signals : Named SignalId := []
  /-- Handles and futures by name. -/
  watches : Watches := {}

/-- A step of a scenario. -/
inductive Step where
  /-- Makes a signal. -/
  | make (signal : String)
  /-- Keeps a handle that is ready from the start. -/
  | readyHandle (handle : String)
  /-- Fires a signal. -/
  | fire (signal : String)
  /-- Asks whether a signal has fired. -/
  | isFired (signal : String)
  /-- Keeps a handle on a signal. -/
  | handle (signal handle : String)
  /-- Keeps a signal under another name too. -/
  | copy (signal copy : String)
  /-- Lets a name of a signal go. -/
  | drop (signal : String)
  /-- Fires a signal from a number of threads at once, and asks how many of them fired it. -/
  | race (signal : String) (threads : Nat)
  /-- A step on handles and futures. -/
  | watch (step : WatchStep)

/-- What is seen after a step. -/
structure Report where
  /-- The answer to the step. -/
  answer : Answer
  /-- Which signals have fired. -/
  fired : Named Bool
  /-- Which handles are ready. -/
  ready : Named Bool

/-- Fires a signal a number of times, and counts the calls that fired it. -/
def fireMany (board : SignalBoard) (id : SignalId) : Nat → Nat × SignalBoard
  | 0 => (0, board)
  | n + 1 =>
    let (first, board) := board.fire id
    let (others, board) := fireMany board id n
    (others + first.toNat, board)

/-- Runs a step. -/
def run (step : Step) (s : State) : Answer × State :=
  match step with
  | .make name =>
    let (id, board) := s.board.make
    (.nothing, { s with board, signals := s.signals.keep name id })
  | .readyHandle name =>
    (.nothing, { s with watches.handles := s.watches.handles.keep name .ready })
  | .fire name =>
    match s.signals.get? name with
    | none => (.unknown, s)
    | some id =>
      let (first, board) := s.board.fire id
      (.flag first, { s with board })
  | .isFired name =>
    match s.signals.get? name with
    | none => (.unknown, s)
    | some id => (.flag (s.board.isFired id), s)
  | .handle name handle =>
    match s.signals.get? name with
    | none => (.unknown, s)
    | some id =>
      (.nothing, { s with watches.handles := s.watches.handles.keep handle (.on id) })
  | .copy name copy =>
    match s.signals.get? name with
    | none => (.unknown, s)
    | some id => (.nothing, { s with signals := s.signals.keep copy id })
  | .drop name => (.flag (s.signals.has name), { s with signals := s.signals.drop name })
  | .race name threads =>
    match s.signals.get? name with
    | none => (.unknown, s)
    | some id =>
      let (fired, board) := fireMany s.board id threads
      (.number fired, { s with board })
  | .watch step =>
    let (answer, watches, board) := s.watches.run step s.board
    (answer, { s with watches, board })

/-- What is seen of a state, with the answer to the step that led there. -/
def report (answer : Answer) (s : State) : Report :=
  { answer, fired := s.signals.view s.board.isFired, ready := s.watches.readiness s.board }

/-- Runs a scenario. -/
def runAll (s : State) : List Step → List Report
  | [] => []
  | step :: rest =>
    let (answer, s) := run step s
    report answer s :: runAll s rest

end CommitPipeline.SignalScenario
