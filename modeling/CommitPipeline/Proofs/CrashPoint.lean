import CommitPipeline.Proofs.Operation

/-!
# Crash points

A program that crashes leaves what the database holds; a transaction that was not committed is
lost. The points at which an operation can be cut off are those between two calls of trackers and
those within a call, where some of the signals that the call fires have fired. The relations of this
module follow the operations phase by phase and say which database and which signals are there at
each point.

The module introduces:

* `Remains` — a database, and the signals as they were;
* `SweepPoint` — the points of a question to all trackers;
* `Pipeline.CyclePoint`, `Pipeline.LoadPoint` and their like — the points of each phase;
* `Operation.Point` — the points of an operation.
-/

namespace CommitPipeline

/-- What a crash leaves: the database, and the signals for those who still hold handles. -/
structure Remains where
  /-- What the database holds. -/
  store : Store
  /-- The signals. -/
  signals : SignalBoard

/-- A board on the way from one board to another: some of what happens between the two has
happened. -/
structure SignalBoard.Between (before after amid : SignalBoard) : Prop where
  made_ge : before.made ≤ amid.made
  made_le : amid.made ≤ after.made
  fired_before : ∀ s, before.isFired s → amid.isFired s
  fired_after : ∀ s, amid.isFired s → after.isFired s

/-- A board is on the way from itself to any later one. -/
theorem SignalBoard.Between.start {before after : SignalBoard} (hmade : before.made ≤ after.made)
    (hfired : ∀ s, before.isFired s → after.isFired s) : before.Between after before :=
  ⟨Nat.le_refl _, hmade, fun _ h => h, hfired⟩

/-- The signals at some point of a question to all trackers: so many have answered, and the next one
is answering. -/
def SweepPoint {τ κ ε : Type} (ask : Act ε (τ × κ) Unit) (board : κ → SignalBoard)
    (trackers : List τ) (context : κ) (amid : SignalBoard) : Prop :=
  ∃ answered, SignalBoard.Between
    (board (sweep ask (trackers.take answered) context).2.2)
    (board (sweep ask (trackers.take (answered + 1)) context).2.2) amid

namespace Pipeline

/-- What a crash leaves of a pipeline between two operations. -/
def remains {τ : Type} (p : Pipeline τ) : Remains := ⟨p.store, p.effects.signals⟩

/-- The points of a question to all trackers of a pipeline. -/
def AskPoint {τ ε : Type} (question : Act ε (τ × Effects) Unit) (p : Pipeline τ) (m : Remains) :
    Prop :=
  m.store = p.store ∧ SweepPoint question Effects.signals p.trackers p.effects m.signals

variable {γ : Type} [Guest γ]

/-! ## Loads -/

/-- The points of a replay: those of the first block, and those of the others. -/
inductive ReplayPoint (ledger : LedgerView) :
    Nat → Round → Pipeline (Member γ) → Remains → Prop
  | first {count r p block delta m} (hblock : ledger.block r = some (block, delta))
      (hpoint : AskPoint (Tracker.newBlock block delta) p m) :
      ReplayPoint ledger (count + 1) r p m
  | later {count r following p q block delta m} (hblock : ledger.block r = some (block, delta))
      (hnew : p.newBlock block delta = (.ok (), q)) (hnext : r.next = .ok following)
      (hpoint : ReplayPoint ledger count following q m) : ReplayPoint ledger (count + 1) r p m

/-- The points of a load. -/
inductive LoadPoint (ledger : LedgerView) (p : Pipeline (Member γ)) (m : Remains) : Prop
  | starting (hpoint : AskPoint (Tracker.load ledger p.store p.store.round) p m)
  | replaying {q first} (hstarted : p.ask (Tracker.load ledger p.store p.store.round) = (.ok (), q))
      (hfirst : p.store.round.next = .ok first)
      (hpoint : ReplayPoint ledger (ledger.latest.since p.store.round).toNat first q m)

/-! ## Negotiations -/

/-- The points of a negotiation. -/
def SchedulePoint (committed : Round) (lookback : UInt64) (p : Pipeline (Member γ)) (m : Remains) :
    Prop :=
  m.store = p.store ∧ SweepPoint (refineOne committed p.durable) (fun c => c.1.signals) p.trackers
    (p.effects, p.propose committed lookback) m.signals

/-- The points of a report. -/
inductive ReportPoint (round : Round) (p : Pipeline (Member γ)) (m : Remains) : Prop
  | needing (hstore : m.store = p.store)
      (hpoint : SweepPoint (needOne round) (fun c => c.1.signals) p.trackers
        (p.effects, (⟨round, 0⟩ : Need)) m.signals)
  | scheduling {need q} (hneed : (p.remember round).needAll round = (.ok need, q))
      (hpoint : SchedulePoint round need.lookback q m)

/-! ## Cycles -/

/-- The points after a transaction was written, the first of them before anybody is told. -/
inductive SettlePoint (newBase : Round) (k : Ticket) (p : Pipeline (Member γ)) (m : Remains) : Prop
  | landed (hpoint : AskPoint (Tracker.notice .landed { k with flushed := true })
      { p with durable := newBase, flushed := true } m)
  | released {q} (htold : ({ p with durable := newBase, flushed := true } :
        Pipeline (Member γ)).tell .landed { k with flushed := true } = (.ok (), q))
      (hpoint : AskPoint (Tracker.notice .released { k with flushed := true }) q m)

/-- A pipeline at the beginning of the cycle of a ticket. -/
def enter (k : Ticket) (p : Pipeline (Member γ)) : Pipeline (Member γ) :=
  p.log (.cycleEntered k.range.base k.range.length)

/-- The points of a cycle. While the trackers write, the database is still what it was. -/
inductive CyclePoint (k : Ticket) (p : Pipeline (Member γ)) (m : Remains) : Prop
  | skipped (hpoint : AskPoint (Tracker.notice .outOfOrder k)
      ((p.enter k).log (.outOfOrder p.durable)) m)
  | preparing (hstore : m.store = p.store)
      (hpoint : SweepPoint Tracker.prepare (fun c => c.1.signals) p.trackers
        ((p.enter k).effects, k) m.signals)
  | objected {e k' q} (hprepare : (p.enter k).prepareAll k = (.error (.error e), k', q))
      (hpoint : AskPoint (Tracker.notice .prepareFailed k') (q.log (.prepareFailed e)) m)
  | writing {k' q} (hprepare : (p.enter k).prepareAll k = (.ok (), k', q))
      (hstore : m.store = q.store)
      (hpoint : SweepPoint Tracker.write (fun c => c.1.signals) q.trackers
        (q.effects, k', q.store) m.signals)
  | rolledBack {k₁ p₁ newBase e k' q} (hprepare : (p.enter k).prepareAll k = (.ok (), k₁, p₁))
      (hwrite : p₁.transaction newBase k₁ = (.error (.error e), k', q))
      (hpoint : AskPoint (Tracker.notice .writeFailed k') (q.log (.rolledBack e)) m)
  | settling {newBase k' q} (hwrites : p.Writes k newBase k' q)
      (hpoint : SettlePoint newBase k' q m)

/-- The points of a cycle with retries: those of its first try, and those of the tries after an
objection. -/
inductive RetryPoint : Nat → Nat → Ticket → Pipeline (Member γ) → Remains → Prop
  | first {retries attempt k p m} (hpoint : CyclePoint k p m) : RetryPoint retries attempt k p m
  | again {retries attempt k p tracker objection k' q m}
      (hobjected : p.runCycle k = (.error (.error (.cannotPrepare tracker objection)), k', q))
      (hpoint : RetryPoint retries (attempt + 1)
        { k' with range := { k'.range with length := k'.range.length / 2 } }
        (q.log (.narrowed tracker objection (attempt + 1) (k'.range.length / 2))) m) :
      RetryPoint (retries + 1) attempt k p m

end Pipeline

variable {γ : Type} [Guest γ]

/-- The points within an operation. -/
inductive Operation.Point : Operation → Pipeline (Member γ) → Remains → Prop
  | load {ledger p m} (hpoint : p.LoadPoint ledger m) : Point (.load ledger) p m
  | newBlock {block delta p m} (hpoint : p.AskPoint (Tracker.newBlock block delta) m) :
      Point (.newBlock block delta) p m
  | close {p m} (hpoint : p.AskPoint Tracker.close m) : Point .close p m
  | report {round p m} (hpoint : p.ReportPoint round m) : Point (.request (.report round)) p m
  | schedule {committed lookback p m} (hpoint : p.SchedulePoint committed lookback m) :
      Point (.request (.schedule committed lookback)) p m
  | commit {k p m} (hpoint : p.CyclePoint k m) : Point (.request (.commit k)) p m
  | work {k p m} (hpoint : p.RetryPoint p.config.prepareRetries.toNat 0 k m) :
      Point (.request (.work k)) p m
  | complete {handled p m}
      (hpoint : (p.clearMark.log (.followUp handled p.reported)).ReportPoint p.reported m) :
      Point (.request (.complete handled)) p m

end CommitPipeline
