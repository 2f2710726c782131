import CommitPipeline.Proofs.CrewCycle

/-!
# Which requests commit a transaction

The database changes where the transaction of a cycle is committed, and nowhere else. A request
commits at most one: the one of its cycle, or of a later try after the trackers objected to a longer
range. This holds also of cycles that are cut short while the trackers are told of the landing.

The module introduces:

* `Pipeline.TryWrites` — one of the tries of a cycle with retries writes its transaction;
* `Request.Commits`, `Operation.Commits` — what is committed by a request, by an operation;
* `Request.Commits.writes` — around the transaction a request is steady;
* `Request.steady_of_idle` — a request that commits nothing is steady.
-/

namespace CommitPipeline

variable {γ : Type} [Guest γ]

namespace Pipeline

variable {p : Pipeline (Member γ)} {k : Ticket} {newBase : Round} {store : Store}

/-- One of the tries of a cycle with retries writes its transaction: the first one, or one of those
that follow an objection, with half the range. -/
inductive TryWrites : Nat → Nat → Ticket → Pipeline (Member γ) → Round → Store → Prop
  | first {retries attempt k p newBase k' q} (hwrites : p.Writes k newBase k' q) :
      TryWrites retries attempt k p newBase q.store
  | again {retries attempt k p tracker objection k' q newBase store}
      (hobjected : p.runCycle k = (.error (.error (.cannotPrepare tracker objection)), k', q))
      (hlong : 1 < k'.range.length)
      (hlater : TryWrites retries (attempt + 1)
        { k' with range := { k'.range with length := k'.range.length / 2 } }
        (q.log (.narrowed tracker objection (attempt + 1) (k'.range.length / 2))) newBase store) :
      TryWrites (retries + 1) attempt k p newBase store

/-- A cycle to which nobody objects is not tried again. -/
theorem retryHalving_eq_runCycle {retries attempt : Nat}
    (h : ∀ tracker objection,
      (p.runCycle k).1 ≠ .error (.error (.cannotPrepare tracker objection))) :
    p.retryHalving retries attempt k = p.runCycle k := by
  cases retries with
  | zero => rfl
  | succ retries =>
    unfold retryHalving
    split
    · next tracker objection k' q heq => exact absurd (congrArg Prod.fst heq) (h tracker objection)
    · rfl

/-- Nobody objects to a range any more once the transaction is written. -/
theorem settleLanded_ne_objection {q : Pipeline (Member γ)} (tracker : String)
    (objection : Objection) :
    (q.settleLanded newBase k).1 ≠ .error (.error (.cannotPrepare tracker objection)) := by
  intro h
  rcases (settleLanded_result (p := q) newBase k).2 with hok | ⟨f, hfault⟩
  · rw [h] at hok
    cases hok
  · rw [h] at hfault
    cases hfault

variable [KeepsRange γ]

/-- A cycle with retries that writes a transaction ends as the try that does so. -/
theorem TryWrites.writes {retries attempt : Nat}
    (h : TryWrites retries attempt k p newBase store) :
    ∃ p₀ k₀ k' q, p.Steady p₀ ∧ p₀.Writes k₀ newBase k' q ∧ q.store = store ∧
      p.retryHalving retries attempt k = q.settleLanded newBase k' := by
  induction h with
  | @first retries attempt k p newBase k' q hwrites =>
    refine ⟨p, k, k', q, .refl p, hwrites, rfl, ?_⟩
    -- What follows a written transaction is no objection, so there is no further try.
    rw [← runCycle_of_writes hwrites]
    apply retryHalving_eq_runCycle
    intro tracker objection
    rw [runCycle_of_writes hwrites]
    exact settleLanded_ne_objection tracker objection
  | @again retries attempt k p tracker objection k' q newBase store hobjected hlong _ ih =>
    obtain ⟨p₀, k₀, k'', q', hsteady, hwrites, hstore, heq⟩ := ih
    have hobjection := (fruitless_runCycle_of_error hobjected).steady
    refine ⟨p₀, k₀, k'', q', (hobjection.trans (steady_log _)).trans hsteady, hwrites, hstore, ?_⟩
    rw [retryHalving, hobjected]
    simp only [if_pos hlong]
    exact heq

/-- A cycle with retries of which no try writes a transaction is steady. -/
theorem steady_retryHalving {retries attempt : Nat}
    (h : ∀ newBase store, ¬TryWrites retries attempt k p newBase store) :
    p.Steady (p.retryHalving retries attempt k).2.2 := by
  -- By induction on the tries that are left: the first one wrote nothing, nor did those after it.
  induction retries generalizing attempt k p with
  | zero =>
    rcases runCycle_cases k p with hfruitless | ⟨newBase, k', q, hwrites, -⟩
    · exact hfruitless.steady
    · exact absurd (.first hwrites) (h newBase q.store)
  | succ retries ih =>
    rcases runCycle_cases k p with hfruitless | ⟨newBase, k', q, hwrites, -⟩
    swap
    · exact absurd (.first hwrites) (h newBase q.store)
    have hcycle := hfruitless.steady
    unfold retryHalving
    split
    · next tracker objection k' q heq =>
      rw [heq] at hcycle
      split
      · next hlong =>
        have hlater := ih fun newBase store hlater => h newBase store (.again heq hlong hlater)
        exact (hcycle.trans (steady_log _)).trans hlater
      · exact hcycle
    · exact hcycle

end Pipeline

open Pipeline

/-- The transaction of a request is committed: the new durable round, and the database behind it. -/
inductive Request.Commits : Request → Pipeline (Member γ) → Round → Store → Prop
  | commit {k p newBase k' q} (hwrites : p.Writes k newBase k' q) :
      Commits (.commit k) p newBase q.store
  | work {k p newBase store}
      (hwrites : TryWrites p.config.prepareRetries.toNat 0 k p newBase store) :
      Commits (.work k) p newBase store

/-- The transaction of an operation is committed. Only requests run cycles. -/
inductive Operation.Commits : Operation → Pipeline (Member γ) → Round → Store → Prop
  | request {request p newBase store} (hcommits : request.Commits p newBase store) :
      Commits (.request request) p newBase store

namespace Request

variable [KeepsRange γ] {request : Request} {p : Pipeline (Member γ)} {newBase : Round}
  {store : Store}

/-- What comes before the transaction of a request is steady, and so is what comes after the
trackers were told of it. -/
theorem Commits.writes (h : request.Commits p newBase store) :
    ∃ p₀ k k' q, p.Steady p₀ ∧ p₀.Writes k newBase k' q ∧ q.store = store ∧
      (q.settleLanded newBase k').2.2.Steady (request.run p) := by
  cases h with
  | @commit k _ _ k' q hwrites =>
    have hafter := (commit_spec k p).1
    rw [runCycle_of_writes hwrites] at hafter
    exact ⟨p, k, k', q, .refl p, hwrites, rfl, hafter⟩
  | @work k _ _ _ hwrites =>
    obtain ⟨p₀, k₀, k', q, hsteady, hwrites, hstore, heq⟩ := hwrites.writes
    refine ⟨p₀, k₀, k', q, hsteady, hwrites, hstore, ?_⟩
    have heq : p.runWithRetries k = q.settleLanded newBase k' := heq
    rw [run, heq]
    exact steady_log _

/-- A request that commits nothing is steady. -/
theorem steady_of_idle (h : ∀ newBase store, ¬request.Commits p newBase store) :
    p.Steady (request.run p) := by
  -- Only two requests run cycles, and of these neither wrote a transaction.
  cases request with
  | commit k =>
    rcases runCycle_cases k p with hfruitless | ⟨newBase, k', q, hwrites, -⟩
    · exact hfruitless.steady.trans (commit_spec k p).1
    · exact absurd (.commit hwrites) (h newBase q.store)
  | work k =>
    have hcycle := steady_retryHalving (p := p) (k := k)
      fun newBase store hwrites => h newBase store (.work hwrites)
    exact hcycle.trans (steady_log _)
  | report | schedule | startWorker | takeTicket | complete | retire =>
    exact steady_run (by simp) (by simp) p

end Request

end CommitPipeline
