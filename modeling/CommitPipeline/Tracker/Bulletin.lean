import CommitPipeline.Tracker

/-!
# Bulletins

A bulletin lets its readers wait for rounds. It knows the latest round that was announced and
holds one signal per round above it that somebody waits for.

The module introduces:

* `Bulletin.wait` — a handle for a round, satisfied at once if the round was announced;
* `Bulletin.announce` — a round was reached: its waiters and those below it are released;
* `Bulletin.restart` — starts afresh at a round; handles from before are never released.
-/

namespace CommitPipeline

/-- Rounds that can be waited for. -/
structure Bulletin where
  /-- The signals of the rounds above `latest` that were waited for. -/
  pending : RoundTable SignalId := .empty
  /-- The latest announced round. -/
  latest : Round := .zero
  deriving DecidableEq

namespace Bulletin

instance : Inhabited Bulletin := ⟨{}⟩

/-- A bulletin that has announced the rounds up to a given one. -/
def startingAt (latest : Round) : Bulletin := { latest }

/-- A handle that is released once the bulletin announces a round. All handles of one round stand
for the same signal. -/
def wait (b : Bulletin) (board : SignalBoard) (r : Round) : Handle × Bulletin × SignalBoard :=
  if r ≤ b.latest then (.ready, b, board)
  else
    match b.pending.get? r with
    | some signal => (.on signal, b, board)
    | none =>
      let (signal, board) := board.make
      (.on signal, { b with pending := b.pending.insert r signal }, board)

/-- How many rounds somebody waits for. -/
def pendingCount (b : Bulletin) : Nat := b.pending.size

/-- Announces a round: every waiter at or below it is released. A round below the latest one is a
fault and changes nothing. -/
def announce (r : Round) : Act Fault (Bulletin × Effects) Unit := fun (b, fx) =>
  if r < b.latest then (.error (.regressed r b.latest), b, fx)
  else
    -- A released round is forgotten: whoever waits for it from now on is answered at once.
    let due := (b.pending.keep (fun round => round ≤ r)).rows.map Prod.snd
    let fx := { fx with signals := fx.signals.fireAll due }
    let b := { pending := b.pending.keep (fun round => !(round ≤ r)), latest := r }
    (.ok (), b, fx.logIf (!due.isEmpty) (.waitersReleased r due.length))

/-- Forgets every pending signal and starts afresh at a round. -/
def restart (latest : Round) (b : Bulletin) (fx : Effects) : Bulletin × Effects :=
  (.startingAt latest, fx.logIf (b.pendingCount ≠ 0) (.waitersDropped b.pendingCount latest))

/-- Announces the round of a block unless it was announced before. -/
def announceBlock (block : Block) : Act Fault (Bulletin × Effects) Unit := fun (b, fx) =>
  if block.round ≤ b.latest then (.ok (), b, fx) else announce block.round (b, fx)

/-- Announces the durable round of a ticket that has landed. -/
def announceLanded (ticket : Ticket) : Act Fault (Bulletin × Effects) Unit := fun (b, fx) =>
  match ticket.newBase with
  | .error f => (.error f, b, fx)
  | .ok round => announce round (b, fx)

end Bulletin

end CommitPipeline
