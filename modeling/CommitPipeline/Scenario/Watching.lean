import CommitPipeline.Scenario.Answer

/-!
# Steps on handles and futures
-/

namespace CommitPipeline

/-- Handles and futures kept by name. -/
structure Watches where
  /-- The handles. -/
  handles : Named Handle := []
  /-- The futures. -/
  futures : Named Waiting := []

/-- A step on handles and futures. -/
inductive WatchStep where
  /-- Asks whether a handle is ready. -/
  | isReady (handle : String)
  /-- Keeps a copy of a handle. -/
  | copy (handle copy : String)
  /-- Lets a handle go. -/
  | drop (handle : String)
  /-- Waits for a handle for a bounded time in which nothing happens. -/
  | waitBriefly (handle : String)
  /-- Starts to wait for a handle. -/
  | await (handle future : String)
  /-- Polls a future. -/
  | poll (future : String)
  /-- Asks whether the waker of a future was ever woken. -/
  | woken (future : String)

namespace Watches

/-- Which handles are ready. -/
def readiness (w : Watches) (board : SignalBoard) : Named Bool :=
  w.handles.view (Handle.isReady board)

/-- Runs a step. -/
def run (step : WatchStep) (w : Watches) (board : SignalBoard) :
    Answer × Watches × SignalBoard :=
  match step with
  | .isReady h | .waitBriefly h =>
    match w.handles.get? h with
    | none => (.unknown, w, board)
    | some handle => (.flag (handle.isReady board), w, board)
  | .copy h copy =>
    match w.handles.get? h with
    | none => (.unknown, w, board)
    | some handle =>
      (.flag (handle.isReady board), { w with handles := w.handles.keep copy handle }, board)
  | .drop h => (.flag (w.handles.has h), { w with handles := w.handles.drop h }, board)
  | .await h future =>
    match w.handles.get? h with
    | none => (.unknown, w, board)
    | some handle =>
      let (waiting, board) := Waiting.start board handle
      (.nothing, { w with futures := w.futures.keep future waiting }, board)
  | .poll future =>
    match w.futures.get? future with
    | none => (.unknown, w, board)
    | some waiting =>
      let (poll, waiting, board) := waiting.poll board
      (.verdict poll.verdict, { w with futures := w.futures.keep future waiting }, board)
  | .woken future =>
    match w.futures.get? future with
    | none => (.unknown, w, board)
    | some waiting => (.flag (board.isWoken waiting.waker), w, board)

end Watches

end CommitPipeline
