import CommitPipeline.Proofs.JointRange
import CommitPipeline.Proofs.LookbackPromise

/-!
# What holds a range back

A range that is negotiated ends as far behind the committed round as the caller asks for. Tails
widen the lookback of the range to what they retain, but only after its length was fixed: nobody
shortens it again. So a range may end closer to the committed round than the lookback it carries
says. A report asks for the widest lookback from the start, and its ranges do keep their distance.

The module introduces:

* `Pipeline.end_of_schedule` — where the range of a ticket ends, and which lookback it carries;
* `keeps_distance_iff` — when the rounds that all tails have seen keep the widest lookback;
* `Pipeline.needAll_own` — the lookback that a report asks for;
* `end_behind_lookback_iff` — which tickets end their own lookback behind the committed round.
-/

namespace CommitPipeline

section Joint

variable {durable : Round} {most lookback n : Nat} {us : List Tail} {u : Tail}

theorem widest_le_iff : widest lookback us ≤ n ↔ lookback ≤ n ∧ ∀ u ∈ us, u.retain.toNat ≤ n := by
  rw [widest, List.max_le_iff, List.forall_mem_cons, List.forall_mem_map]

theorem le_seenByAll_iff :
    n ≤ seenByAll durable most us ↔ n ≤ most ∧ ∀ u ∈ us, n ≤ u.highest - durable.toNat := by
  rw [seenByAll, List.le_min_iff, List.forall_mem_cons, List.forall_mem_map]

/-- Either all of the rounds were seen, or a tail sets the end. -/
theorem seenByAll_cases (durable : Round) (most : Nat) (us : List Tail) :
    seenByAll durable most us = most ∨
      ∃ u ∈ us, seenByAll durable most us = u.highest - durable.toNat := by
  have hmem := List.min_mem
    (List.cons_ne_nil most (us.map fun u => u.highest - durable.toNat))
  refine (List.mem_cons.mp hmem).imp_right fun hseen => ?_
  obtain ⟨u, hu, heq⟩ := List.mem_map.mp hseen
  exact ⟨u, hu, heq.symm⟩

/-- The rounds that all tails have seen end the widest lookback behind the committed round exactly
if the lookback asked for is the widest, or the length of a cycle or the rounds that a tail has seen
end them early enough. -/
theorem keeps_distance_iff {committed maxRounds : Nat}
    (hpos : seenByAll durable (min (committed - lookback - durable.toNat) maxRounds) us ≠ 0) :
    durable.toNat + seenByAll durable (min (committed - lookback - durable.toNat) maxRounds) us +
        widest lookback us ≤ committed ↔
      (∀ u ∈ us, u.retain.toNat ≤ lookback) ∨
        durable.toNat + maxRounds + widest lookback us ≤ committed ∨
        ∃ u ∈ us, u.highest + widest lookback us ≤ committed := by
  generalize hmost : min (committed - lookback - durable.toNat) maxRounds = most at hpos ⊢
  obtain ⟨hle, hseen⟩ := le_seenByAll_iff.mp (Nat.le_refl (seenByAll durable most us))
  constructor
  · intro hbehind
    obtain hall | ⟨u, hu, heq⟩ := seenByAll_cases durable most us
    · by_cases hcut : maxRounds ≤ committed - lookback - durable.toNat
      · exact .inr (.inl (by omega))
      · -- The range reaches as far as was asked for, so no lookback may be wider than that.
        have hwidest : widest lookback us ≤ lookback := by omega
        exact .inl (widest_le_iff.mp hwidest).2
    · exact .inr (.inr ⟨u, hu, by omega⟩)
  · rintro (hretain | hcut | ⟨u, hu, hend⟩)
    -- Without a wider tail the proposal itself kept the distance.
    · have hwidest : widest lookback us ≤ lookback := widest_le_iff.mpr ⟨Nat.le_refl _, hretain⟩
      omega
    · omega
    · have hreach := hseen u hu
      omega

end Joint

namespace Pipeline

variable {p q : Pipeline Own} {committed round : Round} {lookback : UInt64} {k : Ticket}

/-- The range of a ticket ends at the last round that all tails have seen of the proposal, which is
behind the lookback that was asked for. -/
theorem end_of_schedule (h : (p.schedule committed lookback).1 = .ok (some k)) :
    let length := seenByAll p.durable
      (min (committed.toNat - lookback.toNat - p.durable.toNat) p.config.maxRounds.toNat)
      (tails p.trackers)
    length ≠ 0 ∧ k.range.lookback.toNat = widest lookback.toNat (tails p.trackers) ∧
      ∃ newBase, k.newBase = .ok newBase ∧ newBase.toNat = p.durable.toNat + length ∧
        newBase.toNat + lookback.toNat ≤ committed.toNat := by
  intro length
  obtain ⟨hbase, hlength, hlookback, -, hpos⟩ := of_schedule_own h
  replace hlength : k.range.length.toNat = length := hlength
  -- A proposal that is not empty ends where it was asked to end, or earlier.
  have hle : length ≤ min _ _ := seenByAll_le
  have hend : p.durable.toNat + length + lookback.toNat ≤ committed.toNat := by omega
  refine ⟨hpos, hlookback, ?_⟩
  cases hnew : k.newBase with
  | ok newBase =>
    have hreached := Round.plus_eq_ok_iff.mp hnew
    rw [hbase, hlength] at hreached
    exact ⟨newBase, rfl, hreached.symm, hreached ▸ hend⟩
  | error f =>
    have habove := (Round.plus_eq_error_iff.mp hnew).2
    have hlimit := committed.toNat_lt
    rw [hbase, hlength] at habove
    omega

/-! ## Reports -/

/-- A tracker of the library that is asked what it needs stays what it is, and with the answer the
lookback is no less wide than what it retains. -/
theorem needOne_own {t : Own} {fx : Effects} {joint : Need}
    (hok : (needOne committed (t, fx, joint)).1 = .ok ()) :
    ∃ need, needOne committed (t, fx, joint) = (.ok (), t, fx, need) ∧
      need.lookback.toNat = widest joint.lookback.toNat (tails [t]) := by
  cases t with
  | memory b | durable b => exact ⟨_, rfl, (Word.toNat_max _ _).trans (Nat.max_zero _)⟩
  | guest e => exact e.elim
  | tail u =>
    cases hfloor : u.windowFloor committed with
    | error f =>
      have hasked : needOne committed ((.tail u : Own), fx, joint) =
          (.error f, .tail u, fx, joint) := by
        simp only [needOne, Tracker.need, Member.need, Tail.need, hfloor, Except.map]
      rw [hasked] at hok
      cases hok
    | ok floor =>
      have hasked : needOne committed ((.tail u : Own), fx, joint) =
          (.ok (), .tail u, fx, ⟨min joint.floor floor, max joint.lookback u.retain⟩) := by
        simp only [needOne, Tracker.need, Member.need, Tail.need, hfloor, Except.map]
      exact ⟨_, hasked, Word.toNat_max _ _⟩

/-- Of all trackers together the lookback has become that of the tail that retains most. -/
theorem sweep_needOne_own {trackers : List Own} {fx : Effects} {joint : Need}
    (hok : (sweep (needOne committed) trackers (fx, joint)).1 = .ok ()) :
    ∃ need, sweep (needOne committed) trackers (fx, joint) = (.ok (), trackers, fx, need) ∧
      need.lookback.toNat = widest joint.lookback.toNat (tails trackers) := by
  -- By induction on the trackers; `joint` is what those before them need.
  induction trackers generalizing joint with
  | nil => exact ⟨joint, rfl, rfl⟩
  | cons t rest ih =>
    rcases hasked : needOne committed (t, fx, joint) with ⟨f | _, t', fx', joint'⟩
    · rw [sweep_cons_of_error rest hasked] at hok
      cases hok
    obtain ⟨need, hneed, hwider⟩ := needOne_own (congrArg Prod.fst hasked)
    rw [sweep_cons_of_ok rest hneed] at hok ⊢
    obtain ⟨left, hrest, hlookback⟩ := ih hok
    rw [hrest]
    refine ⟨left, rfl, ?_⟩
    -- The others are asked with the wider of the two lookbacks.
    rw [hlookback, hwider]
    cases t <;> rfl

theorem needAll_own {need : Need} (h : p.needAll round = (.ok need, q)) :
    q = p ∧ need.lookback.toNat = widest 0 (tails p.trackers) := by
  unfold needAll at h
  rcases hasked : sweep (needOne round) p.trackers (p.effects, (⟨round, 0⟩ : Need)) with
    ⟨f | _, trackers, fx, left⟩
  · rw [hasked] at h
    cases h
  · obtain ⟨left, hswept, hlookback⟩ := sweep_needOne_own (congrArg Prod.fst hasked)
    rw [hswept] at h
    cases h
    exact ⟨rfl, hlookback⟩

end Pipeline

/-- Take a pipeline over bulletins and any number of tails, in any state. A ticket of a negotiation
ends at least the lookback that was asked for behind the committed round, and it carries a lookback
that no tail exceeds. It ends that lookback behind exactly if no tail retains more than was asked
for, or if the length of a cycle or what a tail has seen cut the range short enough. A ticket that a
report put into the queue ends its own lookback behind the reported round, and so as many rounds
behind as any tail retains. -/
theorem end_behind_lookback_iff (p : Pipeline Own) (committed : Round) :
    let us := tails p.trackers
    (∀ lookback k, (p.schedule committed lookback).1 = .ok (some k) →
      ∃ newBase, k.newBase = .ok newBase ∧
        newBase.toNat + lookback.toNat ≤ committed.toNat ∧
        (∀ u ∈ us, u.retain ≤ k.range.lookback) ∧
        (newBase.toNat + k.range.lookback.toNat ≤ committed.toNat ↔
          (∀ u ∈ us, u.retain ≤ lookback) ∨
            p.durable.toNat + p.config.maxRounds.toNat + k.range.lookback.toNat ≤ committed.toNat ∨
            ∃ u ∈ us, u.highest + k.range.lookback.toNat ≤ committed.toNat)) ∧
      ∀ k, (p.report committed).2.queue = p.queue ++ [k] →
        ∃ newBase, k.newBase = .ok newBase ∧
          newBase.toNat + k.range.lookback.toNat ≤ committed.toNat ∧
          ∀ u ∈ us, newBase.toNat + u.retain.toNat ≤ committed.toNat := by
  intro us
  refine ⟨fun lookback k hscheduled => ?_, fun k hqueued => ?_⟩
  · obtain ⟨hpos, hlookback, newBase, hnew, hreached, hend⟩ := Pipeline.end_of_schedule hscheduled
    refine ⟨newBase, hnew, hend, fun u hu => ?_, ?_⟩
    · rw [UInt64.le_iff_toNat_le, hlookback]
      exact (widest_le_iff.mp (Nat.le_refl _)).2 u hu
    · rw [hreached, hlookback]
      exact keeps_distance_iff hpos
  · obtain ⟨need, q, hneed, hscheduled⟩ := Pipeline.schedule_of_report hqueued
    obtain ⟨rfl, hwidest⟩ := Pipeline.needAll_own hneed
    obtain ⟨-, hlookback, newBase, hnew, -, hend⟩ := Pipeline.end_of_schedule hscheduled
    -- The report asked for the widest lookback of all, so that the tails could not widen it.
    have hretain : ∀ u ∈ us, u.retain.toNat ≤ need.lookback.toNat :=
      (widest_le_iff.mp (Nat.le_of_eq hwidest.symm)).2
    have hle : k.range.lookback.toNat ≤ need.lookback.toNat :=
      Nat.le_trans (Nat.le_of_eq hlookback) (widest_le_iff.mpr ⟨Nat.le_refl _, hretain⟩)
    refine ⟨newBase, hnew, by omega, fun u hu => ?_⟩
    have hkept := hretain u hu
    omega

/-- A crew that retains two rounds, once it was loaded from a ledger of five blocks. -/
def loadedFive : Pipeline Own := ((newCrew .empty).load (plainSeries.upTo ⟨5⟩)).2

/-- Asked for no lookback it gives all five rounds with a lookback of two, though nothing was
committed above them. A report has the range end after three. -/
theorem end_behind_lookback_iff_loadedFive :
    let k : Ticket := ⟨⟨.zero, 5, 2⟩, ⟨5⟩, false⟩
    let k' : Ticket := ⟨⟨.zero, 3, 2⟩, ⟨5⟩, false⟩
    (loadedFive.schedule ⟨5⟩ 0).1 = .ok (some k) ∧ k.newBase = .ok ⟨5⟩ ∧
      ¬(⟨5⟩ : Round).toNat + k.range.lookback.toNat ≤ (⟨5⟩ : Round).toNat ∧
      (∃ u ∈ tails loadedFive.trackers, ¬u.retain ≤ 0) ∧
      (loadedFive.report ⟨5⟩).2.queue = loadedFive.queue ++ [k'] ∧
      ∃ newBase, k'.newBase = .ok newBase ∧
        newBase.toNat + k'.range.lookback.toNat ≤ (⟨5⟩ : Round).toNat := by
  intro k k'
  have hscheduled : (loadedFive.schedule ⟨5⟩ 0).1 = .ok (some k) := rfl
  have hqueued : (loadedFive.report ⟨5⟩).2.queue = loadedFive.queue ++ [k'] := rfl
  obtain ⟨hnegotiated, hreported⟩ := end_behind_lookback_iff loadedFive ⟨5⟩
  obtain ⟨newBase, hnew, -, -, hdistance⟩ := hnegotiated 0 k hscheduled
  obtain rfl : ⟨5⟩ = newBase := Except.ok.inj hnew
  have hclose : ¬(⟨5⟩ : Round).toNat + k.range.lookback.toNat ≤ (⟨5⟩ : Round).toNat := by decide
  obtain ⟨newBase, hnew', hend, -⟩ := hreported k' hqueued
  refine ⟨hscheduled, hnew, hclose, ?_, hqueued, newBase, hnew', hend⟩
  -- Had no tail retained more than nothing, the range would have kept its distance.
  by_contra hnone
  refine hclose (hdistance.mpr (.inl fun u hu => ?_))
  by_contra hwide
  exact hnone ⟨u, hu, hwide⟩

end CommitPipeline
