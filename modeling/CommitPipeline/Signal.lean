/-!
# Single-shot signals

A signal fires at most once. `SignalBoard` holds all signals of a program, so that a handle or a
future taken before the event and one taken after it look at the same fact.

The module introduces:

* `SignalId` — a signal, known by the order in which it was made;
* `SignalBoard.make`, `SignalBoard.fire`, `SignalBoard.isFired` — its life;
* `Handle` — what an observer holds: a signal, or a handle that is satisfied from the start;
* `Waiting` — a handle being waited for: polling it pending leaves its waker on the board, and
  the first `fire` wakes every waker left there.
-/

namespace CommitPipeline

/-- A signal, numbered in the order of making. -/
abbrev SignalId := Nat

/-- The waker of a future, numbered in the order of making. -/
abbrev WakerId := Nat

/-- All signals with what happened to them. -/
structure SignalBoard where
  /-- How many signals were made. -/
  made : Nat := 0
  /-- The signals that fired. -/
  fired : List SignalId := []
  /-- How many wakers were made. -/
  wakers : Nat := 0
  /-- Wakers left on signals by futures that were pending. -/
  waiting : List (SignalId × WakerId) := []
  /-- The wakers that were woken. -/
  woken : List WakerId := []
  deriving DecidableEq, Repr, Inhabited

namespace SignalBoard

/-- Whether a signal has fired. -/
def isFired (board : SignalBoard) (id : SignalId) : Bool := board.fired.contains id

/-- Makes a signal. -/
def make (board : SignalBoard) : SignalId × SignalBoard :=
  (board.made, { board with made := board.made + 1 })

/-- Fires a signal, and tells whether it was this call that fired it. -/
def fire (board : SignalBoard) (id : SignalId) : Bool × SignalBoard :=
  if board.isFired id then (false, board)
  else
    (true,
      { board with
        fired := id :: board.fired
        waiting := board.waiting.filter (fun entry => entry.1 ≠ id)
        woken :=
          (board.waiting.filter (fun entry => entry.1 = id)).map Prod.snd ++ board.woken })

/-- Fires a list of signals. -/
def fireAll (board : SignalBoard) (ids : List SignalId) : SignalBoard :=
  ids.foldl (fun board id => (board.fire id).2) board

/-- Makes a waker. -/
def makeWaker (board : SignalBoard) : WakerId × SignalBoard :=
  (board.wakers, { board with wakers := board.wakers + 1 })

/-- Leaves a waker on a signal. -/
def leaveWaker (board : SignalBoard) (id : SignalId) (waker : WakerId) : SignalBoard :=
  { board with waiting := (id, waker) :: board.waiting }

/-- Whether a waker was ever woken. -/
def isWoken (board : SignalBoard) (waker : WakerId) : Bool := board.woken.contains waker

/-- Firing a signal fires this one and no other, and none is taken back. -/
theorem isFired_fire (board : SignalBoard) (id other : SignalId) :
    (board.fire id).2.isFired other = (other == id || board.isFired other) := by
  unfold fire
  by_cases h : board.isFired id
  · rw [if_pos h]
    by_cases he : other = id
    · subst he; simp [h]
    · simp [he]
  · rw [if_neg h]
    exact List.contains_cons

/-- The first to fire a signal is told so. -/
theorem fire_fst (board : SignalBoard) (id : SignalId) :
    (board.fire id).1 = !board.isFired id := by
  unfold fire
  by_cases h : board.isFired id <;> simp [h]

end SignalBoard

/-- What an observer of an event holds. -/
inductive Handle where
  /-- The event is already past. -/
  | ready
  /-- The event is the firing of a signal. -/
  | on (signal : SignalId)
  deriving DecidableEq, Repr

/-- Whether the event a handle stands for has happened. -/
def Handle.isReady (board : SignalBoard) : Handle → Bool
  | ready => true
  | on signal => board.isFired signal

/-- What polling a future answers. -/
inductive Poll where
  /-- The event has happened. -/
  | ready
  /-- The event is still to come. -/
  | pending
  /-- An earlier poll already answered `ready`. -/
  | done
  deriving DecidableEq, Repr

/-- A future that waits for the event of a handle. -/
structure Waiting where
  /-- The handle. -/
  handle : Handle
  /-- The waker that polls give. -/
  waker : WakerId
  /-- Whether a poll answered `ready`. -/
  finished : Bool := false
  deriving DecidableEq, Repr

namespace Waiting

/-- Starts to wait; nothing is polled yet. -/
def start (board : SignalBoard) (handle : Handle) : Waiting × SignalBoard :=
  let (waker, board) := board.makeWaker
  ({ handle, waker }, board)

/-- Polls a future. -/
def poll (board : SignalBoard) (w : Waiting) : Poll × Waiting × SignalBoard :=
  if w.finished then (.done, w, board)
  else
    match w.handle with
    | .ready => (.ready, { w with finished := true }, board)
    | .on signal =>
      if board.isFired signal then (.ready, { w with finished := true }, board)
      -- Left again at every poll; one entry would do, and more of them change nothing.
      else (.pending, w, board.leaveWaker signal w.waker)

end Waiting

end CommitPipeline
