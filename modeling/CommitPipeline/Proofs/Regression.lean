import CommitPipeline.Proofs.PickedRows
import CommitPipeline.Proofs.Tiling

/-!
# No cycle announces a lower round

A bulletin that is told of a round below its latest one is cut short, and with it the cycle. Over
guests that are not cut short themselves this never happens: a tail is cut short only where a range
is too long or ends too high, nobody is cut short in hearing of a cycle that did not land, and a
cycle that lands is told at a stored round, which no durable bulletin is ahead of.

The module introduces:

* `Pipeline.tell_ok_of_failed` — everybody hears of a cycle that did not land;
* `Pipeline.fault_of_runCycle` — the faults that may cut a cycle short;
* `Pipeline.commit_ne_regressed`, `Pipeline.runWithRetries_ne_regressed` — no cycle ends in a lower
  announcement.
-/

namespace CommitPipeline

variable {γ : Type} [Guest γ]

/-- Nobody is cut short in hearing of a cycle that did not land. -/
theorem Member.notice_ok_of_failed [HearsOut γ] {n : Notice} (hlanded : n ≠ .landed)
    (hreleased : n ≠ .released) (k : Ticket) (t : Member γ) (fx : Effects) :
    (notice n k (t, fx)).1 = .ok () := by
  cases t with
  | memory b => rfl
  | guest g => exact HearsOut.notice_ok n k g
  | durable b =>
    cases n with
    | released => exact absurd rfl hreleased
    | landed | outOfOrder | prepareFailed | writeFailed => rfl
  | tail t =>
    cases n with
    | landed => exact absurd rfl hlanded
    | released | outOfOrder | prepareFailed | writeFailed => rfl

namespace Pipeline

variable {p : Pipeline (Member γ)} {k : Ticket} {f : Fault}

/-- Everybody hears of a cycle that did not land. -/
theorem tell_ok_of_failed [HearsOut γ] {n : Notice} (hlanded : n ≠ .landed)
    (hreleased : n ≠ .released) (k : Ticket) : (p.tell n k).1 = .ok () :=
  (sweep_of_forall_ok (G := fun _ => True) (H := fun _ => True)
    (fun t fx _ => ⟨Member.notice_ok_of_failed hlanded hreleased k t fx, trivial⟩)
    p.trackers p.effects fun _ _ => trivial).1

theorem failWith_ne_fault [HearsOut γ] {n : Notice} (hlanded : n ≠ .landed)
    (hreleased : n ≠ .released) (e : PipelineError) (k : Ticket) (f : Fault) :
    (p.failWith n e k).1 ≠ .error (.fault f) := by
  have htell := tell_ok_of_failed (p := p) hlanded hreleased k
  unfold failWith
  rcases h : p.tell n k with ⟨f' | _, q⟩ <;> rw [h] at htell
  · cases htell
  · intro h
    cases h

theorem skipPhase_ne_fault [HearsOut γ] (k : Ticket) (f : Fault) :
    (p.skipPhase k).1 ≠ .error (.fault f) := by
  have htell := tell_ok_of_failed (p := p.log (.outOfOrder p.durable)) (n := .outOfOrder) (by simp)
    (by simp) k
  unfold skipPhase
  rcases h : (p.log (.outOfOrder p.durable)).tell .outOfOrder k with ⟨f' | _, q⟩ <;>
    rw [h] at htell
  · cases htell
  · intro h
    cases h

variable [KeepsRange γ] [Answers γ]

/-- The write phase is cut short where a tail is, if what follows the transaction is not. -/
theorem fault_of_writePhase
    (hsettle : ∀ newBase k' q, k.newBase = .ok newBase →
      p.transaction newBase k = (.ok (), k', q) →
        ∀ f, (q.settleLanded newBase k').1 ≠ .error (.fault f))
    (h : (p.writePhase k).1 = .error (.fault f)) : Tail.CutsShort k.range f := by
  unfold writePhase at h
  cases hnew : k.newBase with
  | error f' =>
    -- The end of the range cannot be counted, so neither can the round behind it.
    simp only [hnew, Except.error.injEq, Stop.fault.injEq] at h
    obtain ⟨rfl, hhigh⟩ := Round.plus_eq_error_iff.mp hnew
    exact h ▸ .rounds (by omega)
  | ok newBase =>
    have hfault : ∀ f, (p.transaction newBase k).1 = .error (.fault f) →
        Tail.CutsShort k.range f := fun f => fault_of_transaction
    simp only [hnew] at h
    rcases hwritten : p.transaction newBase k with ⟨(e | f') | _, k', q⟩ <;>
      rw [hwritten] at hfault <;> simp only [hwritten] at h
    · exact absurd h (failWith_ne_fault (p := q.log (.rolledBack e)) (n := .writeFailed) (by simp)
        (by simp) e k' f)
    · cases h
      exact hfault f rfl
    · exact absurd h (hsettle newBase k' q hnew hwritten f)

/-- A cycle is cut short only where a tail is. One that lands is told at a round that no durable
bulletin is ahead of, and nobody is cut short in hearing of any other. -/
theorem fault_of_runCycle (hp : p.Current) (h : (p.runCycle k).1 = .error (.fault f)) :
    Tail.CutsShort k.range f := by
  unfold runCycle at h
  simp only at h
  split at h
  · cases h
  next hloaded =>
  split at h
  · exact absurd h (skipPhase_ne_fault k f)
  next hbase =>
  have hrange := range_prepareAll (p := p.log (.cycleEntered k.range.base k.range.length)) k
  have hfault : ∀ f, ((p.log (.cycleEntered k.range.base k.range.length)).prepareAll k).1 =
      .error (.fault f) → Tail.CutsShort k.range f := fun f => fault_of_prepareAll
  unfold preparePhase at h
  rcases hprepared : (p.log (.cycleEntered k.range.base k.range.length)).prepareAll k with
    ⟨(e | f') | _, k₁, p₁⟩ <;> rw [hprepared] at hrange hfault h
  · exact absurd h (failWith_ne_fault (p := p₁.log (.prepareFailed e)) (n := .prepareFailed)
      (by simp) (by simp) e k₁ f)
  · cases h
    exact hfault f rfl
  -- Everybody is ready; if the transaction is written, the cycle lands.
  have hrange : k₁.range = k.range := hrange
  rw [← hrange]
  refine fault_of_writePhase (fun newBase k' q hnew hwritten f hcut => ?_) h
  have hwrites : p.Writes k newBase k' q :=
    ⟨by simpa [log] using hloaded, not_not.mp hbase, k₁, p₁, hprepared, hnew, hwritten⟩
  rw [settles_of_writes hwrites hp] at hcut
  cases hcut

theorem fault_of_commit (hp : p.Current) (h : (p.commit k).1 = .error (.fault f)) :
    Tail.CutsShort k.range f := by
  rw [(commit_eq k p).1] at h
  exact fault_of_runCycle hp h

/-- With a shorter range nobody is cut short who was not with the longer one. -/
theorem fault_of_runWithRetries (hp : p.Current)
    (h : (p.runWithRetries k).1 = .error (.fault f)) : Tail.CutsShort k.range f := by
  obtain ⟨k₀, p₀, hsteady, hbase, hlength, heq⟩ := runWithRetries_cases k p
  rw [heq] at h
  cases fault_of_runCycle (hp.of_steady hsteady) h with
  | rows hmany => exact .rows (Nat.lt_of_lt_of_le hmany hlength)
  | rounds hhigh =>
    have hshorter := UInt64.le_iff_toNat_le.mp hlength
    rw [hbase] at hhigh
    exact .rounds (by omega)

variable {r latest : Round}

/-- No cycle makes a bulletin announce a round below its latest one. -/
theorem commit_ne_regressed (hp : p.Current) (k : Ticket) :
    (p.commit k).1 ≠ .error (.fault (.regressed r latest)) := by
  intro h
  cases fault_of_commit hp h

theorem runWithRetries_ne_regressed (hp : p.Current) (k : Ticket) :
    (p.runWithRetries k).1 ≠ .error (.fault (.regressed r latest)) := by
  intro h
  cases fault_of_runWithRetries hp h

end Pipeline

end CommitPipeline
