import CommitPipeline.Pipeline.Worker
import CommitPipeline.Proofs.Steady

/-!
# How cycles end

A cycle ends in one of two ways: it bears no fruit and nothing changed that readers see, or its
transaction was written and the trackers were told. The proofs about runs of a pipeline need no
more of a cycle than this.

The module introduces:

* `Pipeline.Fruitless` — what is left of a cycle whose transaction was not written;
* `Pipeline.Writes` — a cycle got as far as writing its transaction;
* `Pipeline.runCycle_cases`, `Pipeline.runWithRetries_cases` — the two ways.
-/

namespace CommitPipeline

namespace Pipeline

variable {γ : Type} {p q : Pipeline (Member γ)} {k k' : Ticket} {newBase : Round}

/-- What is left of a cycle of `k` whose transaction was not written. -/
structure Fruitless (p : Pipeline (Member γ)) (k : Ticket)
    (left : Except Stop Outcome × Ticket × Pipeline (Member γ)) : Prop where
  result : ∀ newBase, left.1 ≠ .ok (.landed newBase)
  range : left.2.1.range = k.range
  steady : p.Steady left.2.2

/-- What is fruitless after a steady beginning is fruitless from there on. -/
theorem Fruitless.of_steady {left : Except Stop Outcome × Ticket × Pipeline (Member γ)}
    (hsteady : p.Steady q) (hrange : k'.range = k.range) (h : q.Fruitless k' left) :
    p.Fruitless k left :=
  ⟨h.result, h.range.trans hrange, hsteady.trans h.steady⟩

/-- A fault right after a steady beginning is fruitless. -/
theorem Fruitless.of_stop {stop : Stop} (hsteady : p.Steady q) (hrange : k'.range = k.range) :
    p.Fruitless k (.error stop, k', q) :=
  ⟨fun _ => nofun, hrange, hsteady⟩

variable [Guest γ]

/-! ## The phases -/

/-- A failure that the trackers are told of is fruitless. -/
theorem fruitless_failWith {n : Notice} (hlanded : n ≠ .landed) (hreleased : n ≠ .released)
    (e : PipelineError) (k : Ticket) : p.Fruitless k (p.failWith n e k) := by
  have htell := steady_tell (p := p) hlanded hreleased k
  unfold failWith
  rcases h : p.tell n k with ⟨f | _, q⟩ <;> rw [h] at htell
  · exact .of_stop htell rfl
  · exact .of_stop htell rfl

theorem fruitless_skipPhase (k : Ticket) : p.Fruitless k (p.skipPhase k) := by
  have htell := (steady_log (p := p) (.outOfOrder p.durable)).trans
    (steady_tell (n := .outOfOrder) nofun nofun k)
  unfold skipPhase
  rcases h : (p.log (.outOfOrder p.durable)).tell .outOfOrder k with ⟨f | _, q⟩ <;>
    rw [h] at htell
  · exact .of_stop htell rfl
  · exact ⟨fun _ => nofun, rfl, htell⟩

/-- What the trackers do in a transaction: only the store may differ afterwards, and it does not
if one of them failed. -/
theorem steady_transaction (newBase : Round) (k : Ticket) :
    ({ p with store := (p.transaction newBase k).2.2.store } : Pipeline (Member γ)).Steady
        (p.transaction newBase k).2.2 ∧
      ((p.transaction newBase k).1 = .ok () →
        (p.transaction newBase k).2.2.store.round = newBase) ∧
      ((p.transaction newBase k).1 ≠ .ok () →
        (p.transaction newBase k).2.2.store = p.store) := by
  obtain ⟨htrackers, hsignals⟩ :=
    sweep_steady (fun c : Effects × Ticket × Store => c.1.signals)
      (fun t c => Member.steady_write t c.1 c.2.1 c.2.2) p.trackers (p.effects, k, p.store)
  -- The sweep works on a copy of the store; whether the copy is kept is decided behind it.
  unfold transaction Store.transact writeAll
  rcases h : sweep Tracker.write p.trackers (p.effects, k, p.store) with
    ⟨stop | _, trackers, effects, k', working⟩ <;> rw [show sweep Member.write _ _ = _ from h]
      at htrackers hsignals
  · exact ⟨⟨rfl, rfl, rfl, hsignals, htrackers⟩, nofun, fun _ => rfl⟩
  · exact ⟨⟨rfl, rfl, rfl, hsignals, htrackers⟩, fun _ => rfl, fun hne => absurd rfl hne⟩

/-- A transaction that is written: all trackers wrote, and the store has what they wrote with the
new durable round. -/
theorem transaction_eq_ok (h : p.transaction newBase k = (.ok (), k', q)) :
    ∃ trackers effects working,
      sweep Tracker.write p.trackers (p.effects, k, p.store) =
          (.ok (), trackers, effects, k', working) ∧
        q = { p with trackers, effects, store := working.setRound newBase } := by
  unfold transaction Store.transact writeAll at h
  rcases hsweep : sweep Tracker.write p.trackers (p.effects, k, p.store) with
    ⟨stop | _, trackers, effects, k₁, working⟩ <;> simp only [hsweep, Prod.mk.injEq] at h
  · exact nomatch h.1
  · obtain ⟨-, rfl, rfl⟩ := h
    exact ⟨trackers, effects, working, rfl, rfl⟩

/-- After a transaction only the outcome and faults are left. The ticket is marked as written. -/
theorem settleLanded_result {τ : Type} [Tracker τ] {p : Pipeline τ} (newBase : Round) (k : Ticket) :
    (p.settleLanded newBase k).2.1 = { k with flushed := true } ∧
      ((p.settleLanded newBase k).1 = .ok (.landed newBase) ∨
        ∃ f, (p.settleLanded newBase k).1 = .error (.fault f)) := by
  unfold settleLanded
  simp only
  split
  · next f p₁ _ => exact ⟨rfl, .inr ⟨f, rfl⟩⟩
  · next p₁ _ =>
    split
    · next f p₂ _ => exact ⟨rfl, .inr ⟨f, rfl⟩⟩
    · next p₂ _ => exact ⟨rfl, .inl rfl⟩

section KeepsRange

variable [KeepsRange γ]

theorem range_transaction (newBase : Round) (k : Ticket) :
    (p.transaction newBase k).2.1.range = k.range := by
  have hrange := (sweep_forall (G := fun _ => True)
    (I := fun c : Effects × Ticket × Store => c.2.1.range = k.range)
    (fun t c _ hc => ⟨trivial, (Member.range_write t c.1 c.2.1 c.2.2).trans hc⟩)
    p.trackers (c := (p.effects, k, p.store)) (fun _ _ => trivial) rfl).2
  unfold transaction Store.transact writeAll
  rcases h : sweep Tracker.write p.trackers (p.effects, k, p.store) with
    ⟨stop | _, trackers, effects, k', working⟩ <;> rw [show sweep Member.write _ _ = _ from h]
      at hrange
  · exact hrange
  · exact hrange

/-- The prepare phase is fruitless, or everybody has prepared and the write phase follows. -/
theorem preparePhase_cases (k : Ticket) :
    p.Fruitless k (p.preparePhase k) ∨
      ∃ k₁ p₁, p.prepareAll k = (.ok (), k₁, p₁) ∧ p.preparePhase k = p₁.writePhase k₁ := by
  have hprepare := steady_prepareAll (p := p) k
  have hrange := range_prepareAll (p := p) k
  unfold preparePhase
  rcases h : p.prepareAll k with ⟨(e | f) | _, k₁, p₁⟩ <;> rw [h] at hprepare hrange
  · exact .inl (.of_steady (hprepare.trans (steady_log _)) hrange
      (fruitless_failWith (n := .prepareFailed) nofun nofun e k₁))
  · exact .inl (.of_stop hprepare hrange)
  · exact .inr ⟨k₁, p₁, rfl, rfl⟩

/-- The write phase is fruitless, or the transaction is written and the trackers are told of
it. -/
theorem writePhase_cases (k : Ticket) :
    p.Fruitless k (p.writePhase k) ∨
      ∃ newBase k' q, k.newBase = .ok newBase ∧ p.transaction newBase k = (.ok (), k', q) ∧
        p.writePhase k = q.settleLanded newBase k' := by
  unfold writePhase
  cases hnew : k.newBase with
  | error f => exact .inl (.of_stop (.refl p) rfl)
  | ok newBase =>
    simp only
    -- A transaction that failed left the store alone, so it was steady as a whole.
    obtain ⟨hsteady, -, hkept⟩ := steady_transaction (p := p) newBase k
    have hrange := range_transaction (p := p) newBase k
    rcases h : p.transaction newBase k with ⟨(e | f) | _, k', q⟩ <;>
      rw [h] at hsteady hkept hrange <;> simp only at hsteady hkept hrange
    · rw [hkept nofun] at hsteady
      exact .inl (.of_steady (hsteady.trans (steady_log _)) hrange
        (fruitless_failWith (n := .writeFailed) nofun nofun e k'))
    · rw [hkept nofun] at hsteady
      exact .inl (.of_stop hsteady hrange)
    · exact .inr ⟨newBase, k', q, rfl, h, rfl⟩

end KeepsRange

/-! ## Whole cycles -/

/-- The cycle of `k` wrote its transaction: everybody prepared and wrote, and `newBase` was the end
of the range once everybody had prepared. -/
structure Writes (p : Pipeline (Member γ)) (k : Ticket) (newBase : Round) (k' : Ticket)
    (q : Pipeline (Member γ)) : Prop where
  loaded : p.loaded
  base : k.range.base = p.durable
  phases : ∃ k₁ p₁,
    (p.log (.cycleEntered k.range.base k.range.length)).prepareAll k = (.ok (), k₁, p₁) ∧
      k₁.newBase = .ok newBase ∧ p₁.transaction newBase k₁ = (.ok (), k', q)

namespace Writes

theorem stored (h : p.Writes k newBase k' q) : q.store.round = newBase := by
  obtain ⟨k₁, p₁, -, -, hwritten⟩ := h.phases
  have hstored := (steady_transaction (p := p₁) newBase k₁).2.1
  rw [hwritten] at hstored
  exact hstored rfl

/-- Only the store differs so far of what readers see. -/
theorem steady (h : p.Writes k newBase k' q) :
    ({ p with store := q.store } : Pipeline (Member γ)).Steady q := by
  obtain ⟨k₁, p₁, hprepared, -, hwritten⟩ := h.phases
  have hprepare := (steady_log (p := p) (.cycleEntered k.range.base k.range.length)).trans
    (steady_prepareAll k)
  have hsteady := (steady_transaction (p := p₁) newBase k₁).1
  rw [hprepared] at hprepare
  rw [hwritten] at hsteady
  exact (hprepare.setStore q.store).trans hsteady

variable [KeepsRange γ]

theorem range (h : p.Writes k newBase k' q) : k'.range = k.range := by
  obtain ⟨k₁, p₁, hprepared, -, hwritten⟩ := h.phases
  have hprepare := range_prepareAll (p := p.log (.cycleEntered k.range.base k.range.length)) k
  have hwrite := range_transaction (p := p₁) newBase k₁
  rw [hprepared] at hprepare
  rw [hwritten] at hwrite
  exact hwrite.trans hprepare

/-- The new durable round is the end of the range that the cycle began with. -/
theorem lands (h : p.Writes k newBase k' q) : k.range.newBase = .ok newBase := by
  obtain ⟨k₁, p₁, hprepared, hnew, -⟩ := h.phases
  have hrange := range_prepareAll (p := p.log (.cycleEntered k.range.base k.range.length)) k
  rw [hprepared] at hrange
  rw [← hrange]
  exact hnew

theorem le (h : p.Writes k newBase k' q) : p.durable ≤ newBase := by
  have hsum := Round.plus_eq_ok_iff.mp h.lands
  rw [h.base] at hsum
  exact Nat.le.intro hsum

end Writes

variable [KeepsRange γ]

/-- A cycle is fruitless, or its transaction is written and the trackers are told of it. -/
theorem runCycle_cases (k : Ticket) (p : Pipeline (Member γ)) :
    p.Fruitless k (p.runCycle k) ∨
      ∃ newBase k' q, p.Writes k newBase k' q ∧ p.runCycle k = q.settleLanded newBase k' := by
  have hlog := steady_log (p := p) (.cycleEntered k.range.base k.range.length)
  unfold runCycle
  simp only
  split
  · exact .inl (.of_stop hlog rfl)
  next hloaded =>
  split
  · exact .inl (.of_steady hlog rfl (fruitless_skipPhase k))
  -- From here on the trackers are asked: the pipeline is loaded, and the base is the durable round.
  next hbase =>
  rcases preparePhase_cases (p := p.log (.cycleEntered k.range.base k.range.length)) k with
    hfruitless | ⟨k₁, p₁, hprepared, heq⟩
  · exact .inl (.of_steady hlog rfl hfruitless)
  rcases writePhase_cases (p := p₁) k₁ with hfruitless | ⟨newBase, k', q, hnew, hwritten, heq'⟩
  · have hprepare := hlog.trans (steady_prepareAll k)
    have hrange := range_prepareAll (p := p.log (.cycleEntered k.range.base k.range.length)) k
    rw [hprepared] at hprepare hrange
    rw [heq]
    exact .inl (.of_steady hprepare hrange hfruitless)
  · have hloaded' : p.loaded := by simpa [log] using hloaded
    exact .inr ⟨newBase, k', q,
      ⟨hloaded', not_not.mp hbase, k₁, p₁, hprepared, hnew, hwritten⟩, heq.trans heq'⟩

theorem fruitless_runCycle_of_error {e : PipelineError}
    (h : p.runCycle k = (.error (.error e), k', q)) :
    p.Fruitless k (.error (.error e), k', q) := by
  rcases runCycle_cases k p with hfruitless | ⟨newBase, k₁, q₁, -, heq⟩
  · exact h ▸ hfruitless
  · rcases (settleLanded_result (p := q₁) newBase k₁).2 with hok | ⟨f, hfault⟩
    · rw [← heq, h] at hok
      cases hok
    · rw [← heq, h] at hfault
      cases hfault

/-- The tries of a cycle with ever shorter ranges end as the last of them does, and those before it
are steady. -/
theorem retryHalving_cases (retries attempt : Nat) (k : Ticket) (p : Pipeline (Member γ)) :
    ∃ k₀ p₀, p.Steady p₀ ∧ k₀.range.base = k.range.base ∧ k₀.range.length ≤ k.range.length ∧
      p.retryHalving retries attempt k = p₀.runCycle k₀ := by
  -- By induction on the tries that are left: one that is followed by another bore no fruit.
  induction retries generalizing attempt k p with
  | zero => exact ⟨k, p, .refl p, rfl, UInt64.le_refl _, rfl⟩
  | succ retries ih =>
    unfold retryHalving
    split
    · next tracker objection k' q heq =>
      have hfruitless := fruitless_runCycle_of_error heq
      split
      · obtain ⟨k₀, p₀, hsteady, hbase, hlength, hlast⟩ := ih _ _ _
        have hrange : k'.range = k.range := hfruitless.range
        refine ⟨k₀, p₀, (hfruitless.steady.trans (steady_log _)).trans hsteady, ?_, ?_, hlast⟩
        · rw [hbase]
          show k'.range.base = k.range.base
          rw [hrange]
        · refine UInt64.le_trans hlength ?_
          show k'.range.length / 2 ≤ k.range.length
          rw [hrange, UInt64.le_iff_toNat_le, UInt64.toNat_div]
          exact Nat.div_le_self _ _
      · exact ⟨k, p, .refl p, rfl, UInt64.le_refl _, heq.symm⟩
    · exact ⟨k, p, .refl p, rfl, UInt64.le_refl _, rfl⟩

/-- The cycle of a worker ends as one of its tries does, with the range of its ticket or a shorter
one. -/
theorem runWithRetries_cases (k : Ticket) (p : Pipeline (Member γ)) :
    ∃ k₀ p₀, p.Steady p₀ ∧ k₀.range.base = k.range.base ∧ k₀.range.length ≤ k.range.length ∧
      p.runWithRetries k = p₀.runCycle k₀ :=
  retryHalving_cases _ 0 k p

end Pipeline

end CommitPipeline
