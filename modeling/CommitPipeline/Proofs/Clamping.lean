import CommitPipeline.Proofs.Narrowing
import Mathlib.Data.Set.Basic

/-!
# Ranges cut at a round

The rounds of a range are those above its base that are no further from it than its length. That
says which they are also for a range that runs past the last round there is, where the end cannot be
computed and so nothing can be asked about the rounds above the base. What is left of a range that
is cut at a round are its rounds up to that one. Its end is a round again, so everything can be
asked about it, and the order in which a range is cut at several rounds does not matter.

The module introduces:

* `CommitRange.rounds` — the rounds of a range;
* `CommitRange.contains_of_newBase` — what a range with an end says about a round;
* `CommitRange.rounds_clampNewest`, `CommitRange.newBase_clampNewest` — rounds and end of what is
  left;
* `CommitRange.clampNewest_clampNewest` — a range that is cut twice;
* `CommitRange.clampNewest_exact` — all of it together.
-/

namespace CommitPipeline

namespace CommitRange

variable {g : CommitRange} {newBase r : Round}

/-- The rounds above the base that are no further from it than the length. -/
def rounds (g : CommitRange) : Set Round :=
  {r | g.base < r ∧ r.toNat - g.base.toNat ≤ g.length.toNat}

theorem mem_rounds_iff_of_newBase (h : g.newBase = .ok newBase) :
    r ∈ g.rounds ↔ g.base < r ∧ r ≤ newBase := by
  have hend : g.base.toNat + g.length.toNat = newBase.toNat := Round.plus_eq_ok_iff.mp h
  refine and_congr_right fun hlt => ?_
  rw [Round.lt_def] at hlt
  rw [Round.le_def]
  omega

/-- A range with an end says of every round whether it is one of its rounds. -/
theorem contains_of_newBase (h : g.newBase = .ok newBase) (r : Round) :
    ∃ inside, g.contains r = .ok inside ∧ (inside = true ↔ r ∈ g.rounds) := by
  rw [mem_rounds_iff_of_newBase h, contains, h]
  by_cases hlt : g.base < r
  · rw [if_pos hlt]
    exact ⟨_, rfl, by simp [hlt]⟩
  · rw [if_neg hlt]
    exact ⟨_, rfl, by simp [hlt]⟩

/-! ## What is left of a range -/

theorem length_clampNewest (g : CommitRange) (n : Round) :
    (g.clampNewest n).length.toNat = min g.length.toNat (n.toNat - g.base.toNat) := by
  rw [clampNewest, Word.toNat_min, Round.toNat_since]

/-- Of the rounds of a range those up to the cut are left. -/
theorem rounds_clampNewest (g : CommitRange) (n : Round) :
    (g.clampNewest n).rounds = g.rounds ∩ {r | r ≤ n} := by
  ext r
  rw [Set.mem_inter_iff, rounds, rounds, Set.mem_ofPred_eq, Set.mem_ofPred_eq, Set.mem_ofPred_eq,
    and_assoc]
  refine and_congr_right fun hlt => ?_
  have hbase : (g.clampNewest n).base = g.base := rfl
  rw [hbase, Round.lt_def] at hlt
  rw [hbase, length_clampNewest, Round.le_def]
  -- A cut below the base leaves no room above the base either.
  omega

/-- What is left ends at a round, and above the base only if the cut is above it. -/
theorem newBase_clampNewest (g : CommitRange) (n : Round) :
    ∃ newBase, (g.clampNewest n).newBase = .ok newBase ∧ newBase ≤ max g.base n := by
  have hend : g.base.toNat + (g.clampNewest n).length.toNat ≤ (max g.base n).toNat := by
    rw [length_clampNewest, Round.toNat_max]
    omega
  exact (Narrows.refl (g.clampNewest n)).newBase_le hend (Round.toNat_lt _)

/-- A range that is cut at two rounds is cut at the lower of the two. -/
theorem clampNewest_clampNewest (g : CommitRange) (m n : Round) :
    (g.clampNewest m).clampNewest n = g.clampNewest (min m n) := by
  have hlength : ((g.clampNewest m).clampNewest n).length = (g.clampNewest (min m n)).length := by
    rw [← UInt64.toNat_inj]
    have hbase : (g.clampNewest m).base = g.base := rfl
    rw [length_clampNewest, length_clampNewest, length_clampNewest, hbase, Round.toNat_min]
    omega
  exact congrArg (fun length => { g with length := length }) hlength

/-- The same cut again changes nothing. -/
theorem clampNewest_idem (g : CommitRange) (n : Round) :
    (g.clampNewest n).clampNewest n = g.clampNewest n := by
  have hmin : min n n = n := Round.ext_toNat ((Round.toNat_min n n).trans (Nat.min_self _))
  rw [clampNewest_clampNewest, hmin]

theorem clampNewest_comm (g : CommitRange) (m n : Round) :
    (g.clampNewest m).clampNewest n = (g.clampNewest n).clampNewest m := by
  have hmin : min m n = min n m := by
    apply Round.ext_toNat
    rw [Round.toNat_min, Round.toNat_min]
    exact Nat.min_comm _ _
  rw [clampNewest_clampNewest, clampNewest_clampNewest, hmin]

/-- A range, be its end a round or not, is cut at a round:
* what is left has the base and the lookback of the range, no more rounds, and an end, which is not
  above both the base and the cut;
* it says of every round whether it is one of the rounds of the range and not above the cut, and so
  it agrees with the range where that has an end;
* the same cut again changes nothing, and two cuts, in either order, are one at the lower round. -/
theorem clampNewest_exact (g : CommitRange) (m n r : Round) :
    let left := g.clampNewest n
    left.base = g.base ∧ left.lookback = g.lookback ∧ left.length ≤ g.length ∧
      (∃ newBase, left.newBase = .ok newBase ∧ newBase ≤ max g.base n) ∧
      (∃ inside, left.contains r = .ok inside ∧
        (inside = true ↔
          g.base < r ∧ r ≤ n ∧ r.toNat - g.base.toNat ≤ g.length.toNat) ∧
        ∀ newBase, g.newBase = .ok newBase →
          ∃ before, g.contains r = .ok before ∧ (inside = true ↔ before = true ∧ r ≤ n)) ∧
      left.clampNewest n = left ∧
      (g.clampNewest m).clampNewest n = g.clampNewest (min m n) ∧
      (g.clampNewest n).clampNewest m = g.clampNewest (min m n) := by
  -- What is left always has an end, so everything can be asked about its rounds.
  intro left
  obtain ⟨newBase, hend, hle⟩ := newBase_clampNewest g n
  obtain ⟨inside, hinside, hiff⟩ := contains_of_newBase hend r
  have hleft : inside = true ↔ r ∈ g.rounds ∧ r ≤ n := by
    rw [hiff, rounds_clampNewest]
    rfl
  refine ⟨rfl, rfl, (narrows_clampNewest g n).length, ⟨newBase, hend, hle⟩,
    ⟨inside, hinside, ?_, fun whole hwhole => ?_⟩, clampNewest_idem g n,
    clampNewest_clampNewest g m n, ?_⟩
  · rw [hleft, rounds, Set.mem_ofPred_eq, and_assoc, and_comm (a := r ≤ n)]
  · obtain ⟨before, hbefore, hmem⟩ := contains_of_newBase hwhole r
    exact ⟨before, hbefore, hleft.trans (and_congr_left' hmem.symm)⟩
  · rw [clampNewest_comm, clampNewest_clampNewest]

/-- Four rounds below the last one a range of ten begins. -/
def pastLast : CommitRange := ⟨⟨0xFFFFFFFFFFFFFFFB⟩, 10, 3⟩

/-- It has no end, so it does not say whether the last round but one is one of its rounds. Cut
there, it ends there and has this round. Cut once more, one round below, it has not. -/
theorem clampNewest_exact_pastLast :
    let n : Round := ⟨0xFFFFFFFFFFFFFFFE⟩
    let below : Round := ⟨0xFFFFFFFFFFFFFFFD⟩
    let left := pastLast.clampNewest n
    pastLast.contains n = .error .addOverflow ∧
      left.newBase = .ok n ∧ left.contains n = .ok true ∧
      (left.clampNewest below).contains n = .ok false := by
  intro n below left
  have hend : left.newBase = .ok n := Round.plus_eq_ok_iff.2 (by decide)
  obtain ⟨-, -, -, -, ⟨inside, hinside, hiff, -⟩, -⟩ := clampNewest_exact pastLast n n n
  have htrue : inside = true := hiff.2 (by decide)
  obtain ⟨-, -, -, -, ⟨still, hstill, -, hagrees⟩, -⟩ := clampNewest_exact left n below n
  obtain ⟨before, -, hcut⟩ := hagrees n hend
  have hfalse : still = false := Bool.eq_false_iff.2 fun h => absurd (hcut.1 h).2 (by decide)
  exact ⟨rfl, hend, htrue ▸ hinside, hfalse ▸ hstill⟩

end CommitRange

end CommitPipeline
