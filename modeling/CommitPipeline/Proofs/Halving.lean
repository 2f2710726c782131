import CommitPipeline.Proofs.FollowUps
import CommitPipeline.Proofs.LookbackPromise
import CommitPipeline.Proofs.Tiling
import Mathlib.Algebra.Group.Nat.Defs

/-!
# Ever shorter ranges

A worker to whose range a tracker objects tries again with half of it. The range loses half of its
rounds with every try and never all of them, so the tries come to an end before the retries do if
these are many; what lands in the end is a part of the range that begins where the range began.

The module introduces:

* `Pipeline.nextAttempt?` — the try that follows a try, if one does;
* `Pipeline.getElem?_succ_attempts` — the tries for a ticket, one after the other;
* `Pipeline.failures` — how many tries failed;
* `retries_land_first_rounds` — which tries are made, and what is durable after the last of them.
-/

namespace CommitPipeline

/-- The ticket with half the range. -/
def Ticket.halved (k : Ticket) : Ticket :=
  { k with range := { k.range with length := k.range.length / 2 } }

namespace Pipeline

section Tries

variable {τ : Type} [Tracker τ] {p q : Pipeline τ} {k k' : Ticket} {retries attempt j : Nat}

/-- A tracker objects to the range of a ticket. -/
def Objects (k : Ticket) (p : Pipeline τ) : Prop :=
  ∃ tracker objection, (p.runCycle k).1 = .error (.error (.cannotPrepare tracker objection))

/-- The try that follows a try: after an objection there is one with half the range, unless that
has no more than one round. -/
def nextAttempt? (attempt : Nat) (k : Ticket) (p : Pipeline τ) : Option (Ticket × Pipeline τ) :=
  match p.runCycle k with
  | (.error (.error (.cannotPrepare tracker objection)), k, p) =>
    if 1 < k.range.length then
      some (k.halved, p.log (.narrowed tracker objection (attempt + 1) k.halved.range.length))
    else none
  | _ => none

/-- The answer of a cycle that failed. -/
def isFailure : Except Stop Outcome → Bool
  | .error (.error _) => true
  | .error (.fault _) | .ok _ => false

/-- How many of the tries failed. -/
def failures (tries : List (Ticket × Pipeline τ)) : Nat :=
  tries.countP fun made => isFailure (made.2.runCycle made.1).1

theorem nextAttempt?_eq_some_iff :
    nextAttempt? attempt k p = some (k', q) ↔
      ∃ tracker objection k₁ p₁,
        p.runCycle k = (.error (.error (.cannotPrepare tracker objection)), k₁, p₁) ∧
          1 < k₁.range.length ∧ k' = k₁.halved ∧
          q = p₁.log (.narrowed tracker objection (attempt + 1) k₁.halved.range.length) := by
  unfold nextAttempt?
  split
  · next tracker objection k₁ p₁ heq =>
    rw [heq]
    by_cases hlong : 1 < k₁.range.length
    · rw [if_pos hlong]
      constructor
      · intro h
        cases h
        exact ⟨tracker, objection, k₁, p₁, rfl, hlong, rfl, rfl⟩
      · rintro ⟨_, _, _, _, heq', -, rfl, rfl⟩
        cases heq'
        rfl
    · -- A range of one round is not halved any more.
      rw [if_neg hlong]
      constructor
      · exact nofun
      · rintro ⟨_, _, _, _, heq', hlong', -, -⟩
        cases heq'
        exact absurd hlong' hlong
  · -- Every other end of a cycle is the answer, so nothing is tried again.
    next hother =>
    constructor
    · exact nofun
    · rintro ⟨tracker, objection, k₁, p₁, heq, -, -, -⟩
      exact absurd heq (hother tracker objection k₁ p₁)

/-- The first try is followed by the tries with half the range, or by none. -/
theorem attempts_succ (retries attempt : Nat) (k : Ticket) (p : Pipeline τ) :
    attempts (retries + 1) attempt k p =
      (k, p) :: match nextAttempt? attempt k p with
        | some (k', q) => attempts retries (attempt + 1) k' q
        | none => [] := by
  rw [attempts, nextAttempt?]
  rcases p.runCycle k with ⟨(e | f) | outcome, k', q⟩
  · cases e with
    | cannotPrepare tracker objection =>
      by_cases hlong : 1 < k'.range.length
      · simp only [if_pos hlong]
        rfl
      · simp only [if_neg hlong]
    | _ => rfl
  · rfl
  · rfl

theorem getElem?_zero_attempts (retries attempt : Nat) (k : Ticket) (p : Pipeline τ) :
    (attempts retries attempt k p)[0]? = some (k, p) := by
  cases retries <;> rfl

/-- While retries are left, a try is followed by the one that its answer asks for. -/
theorem getElem?_succ_attempts (h : (attempts retries attempt k p)[j]? = some (k', q)) :
    (attempts retries attempt k p)[j + 1]? =
      if j < retries then nextAttempt? (attempt + j) k' q else none := by
  -- By induction on the retries, as the tries are made: each one leaves one retry less.
  induction retries generalizing attempt k p j with
  | zero => simp [attempts]
  | succ retries ih =>
    rw [attempts_succ] at h ⊢
    rw [List.getElem?_cons_succ]
    cases j with
    | zero =>
      cases h
      rw [if_pos (Nat.succ_pos retries), Nat.add_zero]
      cases nextAttempt? attempt k' q with
      | none => rfl
      | some next => exact getElem?_zero_attempts _ _ _ _
    | succ j =>
      rw [List.getElem?_cons_succ] at h
      cases hnext : nextAttempt? attempt k p with
      | none =>
        rw [hnext] at h
        cases h
      | some next =>
        rw [hnext] at h
        rw [ih h]
        simp only [Nat.succ_lt_succ_iff, Nat.add_assoc, Nat.add_comm 1 j]

/-- Before every try but the first there is one that it follows. -/
theorem exists_before (h : (attempts retries attempt k p)[j + 1]? = some (k', q)) :
    ∃ k₁ q₁, (attempts retries attempt k p)[j]? = some (k₁, q₁) ∧ j < retries ∧
      nextAttempt? (attempt + j) k₁ q₁ = some (k', q) := by
  have hlt := Nat.lt_of_succ_lt (List.getElem?_eq_some_iff.mp h).1
  have hbefore := List.getElem?_eq_getElem hlt
  rw [getElem?_succ_attempts hbefore] at h
  by_cases hleft : j < retries
  · rw [if_pos hleft] at h
    exact ⟨_, _, hbefore, hleft, h⟩
  · rw [if_neg hleft] at h
    cases h

/-- A try that failed leaves database and durable round alone. -/
theorem sameBase_of_isFailure (h : isFailure (p.runCycle k).1) :
    p.SameBase (p.runCycle k).2.2 := by
  refine ((cycleEnd_runCycle k p).asked_of_failed ?_).sameBase
  generalize (p.runCycle k).1 = result at h ⊢
  rcases result with (e | f) | outcome
  · exact .error e
  · cases h
  · cases h

end Tries

/-! ## What the tries leave alone -/

section KeepsRange

variable {γ : Type} [Guest γ] [KeepsRange γ] {p q : Pipeline (Member γ)} {k k' : Ticket}
  {retries attempt j : Nat}

/-- A try that follows another has half its range, and so far nothing changed that readers see. -/
theorem of_nextAttempt? (h : nextAttempt? attempt k p = some (k', q)) :
    k'.range = { k.range with length := k.range.length / 2 } ∧ p.Steady q := by
  obtain ⟨tracker, objection, k₁, p₁, hobjected, -, rfl, rfl⟩ := nextAttempt?_eq_some_iff.mp h
  have hfruitless := fruitless_runCycle_of_error hobjected
  have hrange : k₁.range = k.range := hfruitless.range
  refine ⟨?_, hfruitless.steady.trans (steady_log _)⟩
  rw [← hrange]
  rfl

theorem isSome_nextAttempt?_iff :
    (nextAttempt? attempt k p).isSome ↔ Objects k p ∧ 1 < k.range.length := by
  have hrange := range_runCycle k p
  rw [Option.isSome_iff_exists, Prod.exists]
  constructor
  · rintro ⟨k', q, h⟩
    obtain ⟨tracker, objection, k₁, p₁, hobjected, hlong, -, -⟩ := nextAttempt?_eq_some_iff.mp h
    rw [hobjected] at hrange
    exact ⟨⟨tracker, objection, congrArg Prod.fst hobjected⟩, hrange ▸ hlong⟩
  · rintro ⟨⟨tracker, objection, hobjected⟩, hlong⟩
    rw [← hrange] at hlong
    exact ⟨_, _, nextAttempt?_eq_some_iff.mpr
      ⟨tracker, objection, _, _, Prod.ext hobjected rfl, hlong, rfl, rfl⟩⟩

/-- Every try has the part of the range that is left after so many halvings, and nothing changed
before it that readers see. -/
theorem of_getElem?_attempts (h : (attempts retries attempt k p)[j]? = some (k', q)) :
    k'.range.base = k.range.base ∧
      k'.range.length.toNat = k.range.length.toNat / 2 ^ j ∧ p.Steady q := by
  -- By induction on the number of the try: the try before it halved the range once less.
  induction j generalizing k' q with
  | zero =>
    rw [getElem?_zero_attempts] at h
    cases h
    exact ⟨rfl, (Nat.div_one _).symm, .refl p⟩
  | succ j ih =>
    obtain ⟨k₁, q₁, hbefore, -, hnext⟩ := exists_before h
    obtain ⟨hbase, hlength, hsteady⟩ := ih hbefore
    obtain ⟨hrange, hlater⟩ := of_nextAttempt? hnext
    refine ⟨?_, ?_, hsteady.trans hlater⟩
    · rw [hrange]
      exact hbase
    · rw [hrange]
      show (k₁.range.length / 2).toNat = _
      rw [UInt64.toNat_div, hlength]
      exact Nat.div_div_eq_div_mul _ _ _

/-- Another try is made after an objection, while retries are left and the range has more than one
round. -/
theorem lt_length_attempts_iff (h : (attempts retries attempt k p)[j]? = some (k', q)) :
    j + 1 < (attempts retries attempt k p).length ↔
      Objects k' q ∧ j < retries ∧ 1 < k'.range.length := by
  have hmade : j + 1 < (attempts retries attempt k p).length ↔
      (attempts retries attempt k p)[j + 1]?.isSome := by
    rw [isSome_getElem?]
  rw [hmade, getElem?_succ_attempts h]
  by_cases hleft : j < retries
  · rw [if_pos hleft, isSome_nextAttempt?_iff]
    exact ⟨fun h => ⟨h.1, hleft, h.2⟩, fun h => ⟨h.1, h.2.2⟩⟩
  · rw [if_neg hleft]
    exact ⟨nofun, fun h => absurd h.2.1 hleft⟩

/-- No try is for a range without rounds, unless the first one is. -/
theorem pos_of_getElem?_attempts (hlong : 0 < k.range.length.toNat)
    (h : (attempts retries attempt k p)[j]? = some (k', q)) :
    0 < k.range.length.toNat / 2 ^ j := by
  cases j with
  | zero => rwa [Nat.pow_zero, Nat.div_one]
  | succ j =>
    -- The try before it had more than one round, or else it would have been the last.
    obtain ⟨k₁, q₁, hbefore, -, hnext⟩ := exists_before h
    obtain ⟨-, hlength, -⟩ := of_getElem?_attempts hbefore
    obtain ⟨-, hmore⟩ := isSome_nextAttempt?_iff.mp (Option.isSome_of_eq_some hnext)
    have hmore := UInt64.lt_iff_toNat_lt.mp hmore
    rw [hlength] at hmore
    rw [Nat.pow_succ, ← Nat.div_div_eq_div_mul]
    exact Nat.div_pos hmore Nat.two_pos

/-- No more tries are made than retries are left, and none once the range cannot be halved. -/
theorem length_attempts_le_log (hlong : 0 < k.range.length.toNat) :
    (attempts retries attempt k p).length ≤ min retries k.range.length.toNat.log2 + 1 := by
  have hbound : ∀ j, j + 1 < (attempts retries attempt k p).length →
      j + 1 ≤ min retries k.range.length.toNat.log2 := by
    intro j hj
    have hlt := Nat.lt_of_succ_lt hj
    have htry := List.getElem?_eq_getElem hlt
    obtain ⟨-, hleft, hmore⟩ := (lt_length_attempts_iff htry).mp hj
    obtain ⟨-, hlength, -⟩ := of_getElem?_attempts htry
    have hmore := UInt64.lt_iff_toNat_lt.mp hmore
    rw [hlength] at hmore
    -- With two rounds left after `j` halvings there were that often two to begin with.
    have hpow : 2 ^ (j + 1) ≤ k.range.length.toNat := by
      rw [Nat.pow_succ, Nat.mul_comm]
      exact (Nat.le_div_iff_mul_le (Nat.two_pow_pos j)).mp hmore
    exact Nat.le_min.mpr ⟨hleft, (Nat.le_log2 (Nat.ne_of_gt hlong)).mpr hpow⟩
  by_contra hmany
  have hone := hbound (min retries k.range.length.toNat.log2) (Nat.lt_of_not_le hmany)
  omega

/-- A cycle that lands makes the end of its range durable. -/
theorem durable_of_landed {newBase : Round}
    (h : p.runCycle k = (.ok (.landed newBase), k', q)) :
    k.range.newBase = .ok newBase ∧ q.durable = newBase ∧ q.store.round = newBase := by
  rcases runCycle_cases k p with hfruitless | ⟨newBase', k₁, q₁, hwrites, heq⟩
  · rw [h] at hfruitless
    exact absurd rfl (hfruitless.result newBase)
  rw [h] at heq
  obtain ⟨hstore, hdurable, -⟩ := settleLanded_frame (q := q₁) newBase' k₁
  have hresult := (settleLanded_result (p := q₁) newBase' k₁).2
  rw [← heq] at hstore hdurable hresult
  obtain hok | ⟨f, hfault⟩ := hresult
  · cases hok
    exact ⟨hwrites.lands, hdurable, hstore ▸ hwrites.stored⟩
  · cases hfault

/-- All tries but the last one failed, so if that one did not, they are as many as failed. -/
theorem failures_of_last {earlier : List (Ticket × Pipeline (Member γ))}
    (heq : attempts retries attempt k p = earlier ++ [(k', q)])
    (hlast : isFailure (q.runCycle k').1 = false) :
    failures (attempts retries attempt k p) = earlier.length := by
  have hfailed : ∀ made ∈ earlier, isFailure (made.2.runCycle made.1).1 = true := by
    intro made hmade
    obtain ⟨j, hj, rfl⟩ := List.getElem_of_mem hmade
    have htry : (attempts retries attempt k p)[j]? = some earlier[j] := by
      rw [heq, List.getElem?_append_left hj, List.getElem?_eq_getElem hj]
    have hmore : j + 1 < (attempts retries attempt k p).length := by
      rw [heq, List.length_append]
      exact Nat.succ_lt_succ hj
    obtain ⟨⟨tracker, objection, hobjected⟩, -⟩ := (lt_length_attempts_iff htry).mp hmore
    exact congrArg isFailure hobjected
  unfold failures
  rw [heq, List.countP_append, List.countP_eq_length.mpr hfailed, List.countP_singleton, hlast]
  rfl

end KeepsRange

end Pipeline

open Pipeline

variable {γ : Type} [Guest γ] [KeepsRange γ]

/-- Let the worker run a ticket with a range of at least one round, over trackers that leave the
range alone. The first try is for the whole range, and each further one begins where the one before
it ended, with half of its range, but never with none: it is made exactly if a tracker objected to
the range of more than one round and a retry is left. So there is at most one try more than retries,
or than the range can be halved. A try that fails leaves the database and the durable round alone,
and the answer is that of the last try: if this lands, the durable round is the end of the first
part of the range, which was halved as often as tries failed. -/
theorem retries_land_first_rounds (retries : Nat) (k : Ticket) (p : Pipeline (Member γ))
    (hlong : 0 < k.range.length) :
    let tries := attempts retries 0 k p
    let rounds := k.range.length.toNat
    tries[0]? = some (k, p) ∧
      (∀ j k' q, tries[j]? = some (k', q) →
        k'.range.base = k.range.base ∧ k'.range.length.toNat = rounds / 2 ^ j ∧
        0 < rounds / 2 ^ j ∧
        (j + 1 < tries.length ↔ Objects k' q ∧ j < retries ∧ 1 < rounds / 2 ^ j) ∧
        (∀ k₁ q₁, tries[j + 1]? = some (k₁, q₁) →
          k₁ = (q.runCycle k').2.1.halved ∧ ∃ e, q₁ = (q.runCycle k').2.2.log e) ∧
        (isFailure (q.runCycle k').1 →
          (q.runCycle k').2.2.store = p.store ∧ (q.runCycle k').2.2.durable = p.durable)) ∧
      (∃ k' q, tries.getLast? = some (k', q) ∧ p.retryHalving retries 0 k = q.runCycle k') ∧
      tries.length ≤ min retries rounds.log2 + 1 ∧
      ∀ newBase k' q, p.retryHalving retries 0 k = (.ok (.landed newBase), k', q) →
        newBase.toNat = k.range.base.toNat + rounds / 2 ^ failures tries ∧
        0 < rounds / 2 ^ failures tries ∧ q.durable = newBase ∧ q.store.round = newBase := by
  intro tries rounds
  have hpos : 0 < rounds := UInt64.lt_iff_toNat_lt.mp hlong
  -- All that is said of the answer is read off the last of the attempts.
  obtain ⟨earlier, klast, plast, htries, hanswer⟩ := exists_last_attempt retries 0 k p
  have hlast : tries[earlier.length]? = some (klast, plast) := by
    show (attempts retries 0 k p)[earlier.length]? = _
    rw [htries, List.getElem?_concat_length]
  refine ⟨getElem?_zero_attempts _ _ _ _, fun j k' q htry => ?_, ⟨klast, plast, ?_, hanswer⟩,
    length_attempts_le_log hpos, fun newBase k' q hlanded => ?_⟩
  · obtain ⟨hbase, hlength, hsteady⟩ := of_getElem?_attempts htry
    refine ⟨hbase, hlength, pos_of_getElem?_attempts hpos htry, ?_, fun k₁ q₁ hnext => ?_,
      fun hfailed => ?_⟩
    · rw [lt_length_attempts_iff htry, UInt64.lt_iff_toNat_lt, hlength]
      rfl
    · -- Behind an attempt that is tried again stands the objection that halved it.
      obtain ⟨k₀, q₀, htry', -, hretry⟩ := exists_before hnext
      obtain ⟨rfl, rfl⟩ := Prod.mk.inj (Option.some.inj (htry.symm.trans htry'))
      obtain ⟨tracker, objection, k₂, q₂, hobjected, -, rfl, rfl⟩ :=
        nextAttempt?_eq_some_iff.mp hretry
      rw [hobjected]
      exact ⟨rfl, _, rfl⟩
    · have hsame := sameBase_of_isFailure hfailed
      exact ⟨hsame.store.trans hsteady.store, hsame.durable.trans hsteady.durable⟩
  · show (attempts retries 0 k p).getLast? = _
    rw [htries, List.getLast?_concat]
  · -- The try that landed is the last one, and all before it failed.
    rw [hanswer] at hlanded
    have hfailures : failures tries = earlier.length :=
      failures_of_last htries (by rw [hlanded]; rfl)
    obtain ⟨hbase, hlength, -⟩ := of_getElem?_attempts hlast
    rw [hfailures]
    obtain ⟨hend, hdurable, hstored⟩ := durable_of_landed hlanded
    refine ⟨?_, pos_of_getElem?_attempts hpos hlast, hdurable, hstored⟩
    rw [← Round.plus_eq_ok_iff.mp hend, hbase, hlength]

/-- A guest that takes no more than one round is asked for five rounds, then for two and then for
one, which lands. -/
theorem retries_land_first_rounds_narrowCrew :
    let p : Pipeline (Member Tame) :=
      { trackers := narrowCrew, config := {}, store := .empty, loaded := true }
    let k : Ticket := ⟨⟨.zero, 5, 0⟩, ⟨5⟩, false⟩
    0 < k.range.length ∧ (p.retryHalving 2 0 k).1 = .ok (.landed ⟨1⟩) ∧
      failures (attempts 2 0 k p) = 2 ∧
      (⟨1⟩ : Round).toNat = Round.zero.toNat + 5 / 2 ^ failures (attempts 2 0 k p) := by
  refine ⟨by decide, rfl, rfl, ?_⟩
  obtain ⟨-, -, -, -, hlands⟩ := retries_land_first_rounds 2 ⟨⟨.zero, 5, 0⟩, ⟨5⟩, false⟩
    ({ trackers := narrowCrew, config := {}, store := .empty, loaded := true } :
      Pipeline (Member Tame)) (by decide)
  exact (hlands ⟨1⟩ _ _ rfl).1

end CommitPipeline
