import CommitPipeline.Pipeline.Load
import CommitPipeline.Proofs.Cycle

/-!
# Operations

What is done to a pipeline from outside and by its worker, one operation at a time. A run is a list
of operations in any order; the worker takes part in it by operations of its own, so that anything
may come between two steps of one turn.

The module introduces:

* `Request` — negotiations, cycles and the steps of the worker; `runAll_turn` and
  `runAll_stopWorker` say that whole turns and the end of the worker are made of them;
* `Operation` — requests, loads, blocks and the closing of the trackers;
* `Request.run_cases` — a request is steady, or one of its cycles wrote its transaction;
* `Landing`, `Operation.landings` — the cycles of a run that land.
-/

namespace CommitPipeline

open Pipeline

/-- A cycle that landed. -/
structure Landing where
  /-- The range of the ticket as it came back. -/
  range : CommitRange
  /-- The new durable round as it was answered. -/
  newBase : Round
  deriving DecidableEq, Repr

/-- What may be asked of a pipeline while it runs, and what its worker does. -/
inductive Request where
  /-- A round is reported committed. -/
  | report (round : Round)
  /-- A range is negotiated. -/
  | schedule (committed : Round) (lookback : UInt64)
  /-- The holder of a ticket runs its cycle. -/
  | commit (ticket : Ticket)
  /-- A worker takes over the receiving end of the queue. -/
  | startWorker
  /-- The worker takes the oldest ticket. -/
  | takeTicket
  /-- The worker runs the cycle of a ticket, with retries. -/
  | work (ticket : Ticket)
  /-- The worker is done with a ticket that was negotiated for a round. -/
  | complete (handled : Round)
  /-- The worker stops. -/
  | retire

namespace Request

variable {τ : Type} [Tracker τ]

/-- What a request does. The answer is dropped; what it leaves is kept. -/
def run : Request → Pipeline τ → Pipeline τ
  | report round, p => (p.report round).2
  | schedule committed lookback, p => (p.schedule committed lookback).2
  | commit k, p => (p.commit k).2.2
  | startWorker, p =>
    match p.startWorker with
    | .ok p => p
    | .error _ => p
  | takeTicket, p =>
    match p.takeTicket with
    | some (_, p) => p
    | none => p
  | work k, p =>
    let (result, _, p) := p.runWithRetries k
    p.log (summaryEvent result)
  | complete handled, p =>
    match p.complete handled with
    | (.ok (), p) => p
    | (.error _, p) => p.dropIntake
  | retire, p => (p.log .workerStopped).dropIntake

/-- Requests one after the other. -/
def runAll (requests : List Request) (p : Pipeline τ) : Pipeline τ :=
  requests.foldl (fun p request => request.run p) p

theorem runAll_append (first second : List Request) (p : Pipeline τ) :
    runAll (first ++ second) p = runAll second (runAll first p) := List.foldl_append

/-- A turn of the worker is made of requests. -/
theorem runAll_turn (p : Pipeline τ) : ∃ requests, runAll requests p = p.turn := by
  unfold turn
  cases h : p.takeTicket with
  | none => exact ⟨[], rfl⟩
  | some taken =>
    obtain ⟨k, q⟩ := taken
    have htake : takeTicket.run p = q := by rw [run, h]
    refine ⟨[takeTicket, work k, complete k.committed], ?_⟩
    rw [runAll, List.foldl_cons, htake]
    rfl

/-- What the worker does until nothing is left is made of requests. -/
theorem runAll_settle (p : Pipeline τ) : ∃ requests, runAll requests p = p.settle := by
  have hturns : ∀ (n : Nat) (p : Pipeline τ), ∃ requests, runAll requests p = p.turns n := by
    intro n
    induction n with
    | zero => exact fun p => ⟨[], rfl⟩
    | succ n ih =>
      intro p
      obtain ⟨first, hfirst⟩ := runAll_turn p
      obtain ⟨others, hothers⟩ := ih p.turn
      exact ⟨first ++ others, by rw [runAll_append, hfirst, hothers, turns]⟩
  -- The turns are counted beforehand, by what is in the queue and what may still come in.
  exact hturns p.workload p

/-- The end of the worker is made of requests. -/
theorem runAll_stopWorker (p : Pipeline τ) : ∃ requests, runAll requests p = p.stopWorker := by
  obtain ⟨requests, hsettle⟩ := runAll_settle p
  unfold stopWorker
  simp only
  split
  · exact ⟨requests ++ [retire], by rw [runAll_append, hsettle]; rfl⟩
  · exact ⟨requests, hsettle⟩
  · exact ⟨requests, hsettle⟩

/-- What landed, if a cycle ended so. -/
def landing? : Except Stop Outcome × Ticket × Pipeline τ → Option Landing
  | (.ok (.landed newBase), k, _) => some ⟨k.range, newBase⟩
  | _ => none

/-- What a request makes durable, if it runs a cycle that lands. -/
def landed? : Request → Pipeline τ → Option Landing
  | commit k, p => landing? (p.commit k)
  | work k, p => landing? (p.runWithRetries k)
  | _, _ => none

/-- A fruitless cycle lands nothing. -/
theorem landing?_of_fruitless {γ : Type} {p : Pipeline (Member γ)} {k : Ticket}
    {left : Except Stop Outcome × Ticket × Pipeline (Member γ)} (h : p.Fruitless k left) :
    landing? left = none := by
  obtain ⟨(stop | newBase | _), k', q⟩ := left
  · rfl
  · exact absurd rfl (h.result newBase)
  · rfl

end Request

/-! ## What a request changes -/

section Members

variable {γ : Type} [Guest γ] {p : Pipeline (Member γ)}

namespace Request

/-- The holder of a ticket only gives the mark back after the cycle. -/
theorem commit_spec (k : Ticket) (p : Pipeline (Member γ)) :
    (p.runCycle k).2.2.Steady (p.commit k).2.2 ∧
      landing? (p.commit k) = landing? (p.runCycle k) := by
  unfold Pipeline.commit
  rcases p.runCycle k with ⟨(e | f) | o, k', q⟩
  · exact ⟨steady_clearMark, rfl⟩
  · exact ⟨.refl q, rfl⟩
  · cases o <;> exact ⟨steady_clearMark, rfl⟩

variable [KeepsRange γ]

/-- What holds of the two ways in which a cycle ends holds of a cycle that is only followed by
steady changes. -/
theorem cycle_cases {p₀ q' : Pipeline (Member γ)} {k : Ticket} {landed : Option Landing}
    (hbefore : p.Steady p₀) (hafter : (p₀.runCycle k).2.2.Steady q')
    (hlanded : landed = landing? (p₀.runCycle k)) :
    (p.Steady q' ∧ landed = none) ∨
      ∃ p₀ k newBase k' q, p.Steady p₀ ∧ p₀.Writes k newBase k' q ∧
        (q.settleLanded newBase k').2.2.Steady q' ∧
        landed = landing? (q.settleLanded newBase k') := by
  rcases runCycle_cases k p₀ with hfruitless | ⟨newBase, k', q, hwrites, heq⟩
  · exact .inl ⟨hbefore.trans (hfruitless.steady.trans hafter),
      hlanded.trans (landing?_of_fruitless hfruitless)⟩
  · rw [heq] at hafter hlanded
    exact .inr ⟨p₀, k, newBase, k', q, hbefore, hwrites, hafter, hlanded⟩

omit [KeepsRange γ] in
/-- A request that runs no cycle is steady. -/
theorem steady_run {request : Request} (hcommit : ∀ k, request ≠ .commit k)
    (hwork : ∀ k, request ≠ .work k) (p : Pipeline (Member γ)) : p.Steady (request.run p) := by
  cases request with
  | commit k => exact absurd rfl (hcommit k)
  | work k => exact absurd rfl (hwork k)
  | report round => exact steady_report round
  | schedule committed lookback => exact steady_schedule committed lookback
  | startWorker =>
    simp only [run]
    split
    · next h => exact steady_startWorker h
    · exact .refl p
  | takeTicket =>
    simp only [run]
    split
    · next h => exact steady_takeTicket h
    · exact .refl p
  | complete handled =>
    have hcomplete := steady_complete (p := p) handled
    rw [run]
    rcases h : p.complete handled with ⟨f | _, q⟩ <;> rw [h] at hcomplete
    · exact hcomplete.trans steady_dropIntake
    · exact hcomplete
  | retire => exact (steady_log _).trans steady_dropIntake

/-- A request is steady and lands nothing, or one of its cycles wrote its transaction. In the
latter case everything before that cycle and after it is steady. -/
theorem run_cases (request : Request) (p : Pipeline (Member γ)) :
    (p.Steady (request.run p) ∧ request.landed? p = none) ∨
      ∃ p₀ k newBase k' q, p.Steady p₀ ∧ p₀.Writes k newBase k' q ∧
        (q.settleLanded newBase k').2.2.Steady (request.run p) ∧
        request.landed? p = landing? (q.settleLanded newBase k') := by
  cases request with
  | commit k =>
    obtain ⟨hafter, hlanded⟩ := commit_spec k p
    exact cycle_cases (.refl p) hafter hlanded
  -- Of the tries of a worker only the last one can land.
  | work k =>
    obtain ⟨k₀, p₀, hbefore, -, -, heq⟩ := runWithRetries_cases k p
    refine cycle_cases hbefore ?_ (by rw [landed?, heq])
    rw [run, heq]
    exact steady_log _
  | report | schedule | startWorker | takeTicket | complete | retire =>
    exact .inl ⟨steady_run (by simp) (by simp) p, rfl⟩

/-- What steady changes and written cycles keep, every request keeps. -/
theorem run_preserves {I : Pipeline (Member γ) → Prop}
    (hsteady : ∀ {p q}, p.Steady q → I p → I q)
    (hsettle : ∀ {p k newBase k' q}, I p → p.Writes k newBase k' q →
      I (q.settleLanded newBase k').2.2)
    (request : Request) (hp : I p) : I (request.run p) := by
  rcases run_cases request p with ⟨h, -⟩ | ⟨p₀, k, newBase, k', q, hbefore, hwrites, hafter, -⟩
  · exact hsteady h hp
  · exact hsteady hafter (hsettle (hsteady hbefore hp) hwrites)

end Request

end Members

/-- What is done to a pipeline. -/
inductive Operation where
  /-- The trackers are loaded from the store, and the ledger is replayed. -/
  | load (ledger : LedgerView)
  /-- A block is handed to the trackers. -/
  | newBlock (block : Block) (delta : Delta)
  /-- A request. -/
  | request (request : Request)
  /-- The trackers are closed. -/
  | close

namespace Operation

variable {τ : Type} [Tracker τ]

/-- What an operation does. -/
def run : Operation → Pipeline τ → Pipeline τ
  | load ledger, p => (p.load ledger).2
  | newBlock block delta, p => (p.newBlock block delta).2
  | request r, p => r.run p
  | close, p => p.close.2

/-- Operations one after the other. -/
def runAll (operations : List Operation) (p : Pipeline τ) : Pipeline τ :=
  operations.foldl (fun p operation => operation.run p) p

/-- What an operation makes durable. -/
def landed? : Operation → Pipeline τ → Option Landing
  | request r, p => r.landed? p
  | _, _ => none

/-- The cycles that land while operations are done one after the other, the first one first. -/
def landings : List Operation → Pipeline τ → List Landing
  | [], _ => []
  | operation :: rest, p => (operation.landed? p).toList ++ landings rest (operation.run p)

end Operation

end CommitPipeline
