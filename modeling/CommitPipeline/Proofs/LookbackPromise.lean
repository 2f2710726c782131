import CommitPipeline.Proofs.ReadableWindow
import CommitPipeline.Proofs.Talks
import CommitPipeline.Proofs.Trimming

/-!
# What is left of the lookback of a range

A range carries a lookback, and its lookback floor is meant to be the lowest round that stays in
memory once the range has landed. The tail computes the floor of its window by itself, from the
round behind the new durable one, and so it keeps one round less: of the rounds from the lookback
floor on, all but the floor itself.

The module introduces:

* `Pipeline.schedule_of_report` — the negotiation behind a ticket that a report queued;
* `Pipeline.lookback_of_report` — a ticket that a report to a crew gives asks for as many rounds as
  the tail retains;
* `Request.lookback_of_landed` — the lookback of a ticket survives its cycle, however often this is
  tried with half the range;
* `Reported` — a ticket that a report to a crew put into the queue;
* `held_iff_above_lookbackFloor` — which rounds of the lookback are in memory once such a ticket has
  landed.
-/

namespace CommitPipeline

/-! ## Tickets of reports -/

namespace Pipeline

section Reports

variable {τ : Type} {p : Pipeline τ} {k k' : Ticket} {round : Round}

/-- A ticket that is put into the queue is the one that was handed on. -/
theorem eq_of_queue_dispatch (h : (p.dispatch k').queue = p.queue ++ [k]) : k = k' := by
  unfold dispatch at h
  rcases enqueue_cases k' p with heq | ⟨refusal, heq⟩ <;> rw [heq] at h
  · have hput : p.queue ++ [k'] = p.queue ++ [k] := h
    simpa using hput.symm
  · have hrefused : p.queue = p.queue ++ [k] := h
    simp at hrefused

variable [Tracker τ]

/-- A negotiation puts nothing into the queue. -/
theorem queue_schedule (committed : Round) (lookback : UInt64) (p : Pipeline τ) :
    (p.schedule committed lookback).2.queue = p.queue := by
  obtain ⟨inFlight, trackers, effects, heq⟩ := schedule_frame (p := p) committed lookback
  rw [heq]

/-- A ticket that a report puts into the queue was negotiated for with the lookback that the
trackers need. -/
theorem schedule_of_report (h : (p.report round).2.queue = p.queue ++ [k]) :
    ∃ need q, (p.remember round).needAll round = (.ok need, q) ∧
      (q.schedule round need.lookback).1 = .ok (some k) := by
  have hunchanged : ∀ {queue : List Ticket}, queue = p.queue → queue ≠ p.queue ++ [k] := by
    rintro _ rfl
    simp
  unfold report at h
  rcases hneed : (p.remember round).needAll round with ⟨f | need, q⟩ <;> rw [hneed] at h
  -- A report that is cut short leaves the queue as it was, and so does one that gives no ticket.
  all_goals have hasked : q.queue = p.queue := congrArg (fun left => left.2.queue) hneed.symm
  · exact absurd h (hunchanged hasked)
  refine ⟨need, q, rfl, ?_⟩
  have hqueue := (queue_schedule round need.lookback q).trans hasked
  rcases hscheduled : q.schedule round need.lookback with ⟨f | _ | k', q'⟩ <;>
    simp only [hscheduled] at h hqueue
  · exact absurd h (hunchanged hqueue)
  · exact absurd h (hunchanged hqueue)
  · have hdispatched : (q'.dispatch k').queue = q'.queue ++ [k] := hqueue ▸ h
    rw [eq_of_queue_dispatch hdispatched]

end Reports

variable {p q : Pipeline Own} {before after : List Own} {u : Tail} {k : Ticket} {round : Round}

/-- A crew that is asked for the lookback of its tail agrees on ranges with that lookback. -/
theorem lookback_of_negotiate (h : Around p.trackers before u after)
    (hagreed : (p.negotiate round u.retain).1 = .ok (some k)) : k.range.lookback = u.retain := by
  unfold negotiate at hagreed
  simp only at hagreed
  split at hagreed
  · cases hagreed
  have hrefine : (p.refineAll round (p.propose round u.retain)).1 = _ :=
    refineAll_eq h (p.propose round u.retain)
  rcases hresult : p.refineAll round (p.propose round u.retain) with ⟨result, q⟩
  rw [hresult] at hrefine hagreed
  cases hnarrowed : u.refine (p.propose round u.retain) with
  | none =>
    rw [hnarrowed] at hrefine
    obtain rfl : result = _ := hrefine
    cases hagreed
  | some range =>
    rw [hnarrowed] at hrefine
    obtain rfl : result = _ := hrefine
    -- The tail widens the lookback of the proposal to its own, which is what was proposed.
    have hlookback : range.lookback = u.retain := by
      obtain ⟨highest, -, rfl⟩ := Option.map_eq_some_iff.mp hnarrowed
      rw [← UInt64.toNat_inj, Word.toNat_max]
      exact Nat.max_self _
    simp only at hagreed
    unfold conclude at hagreed
    split at hagreed
    · cases hagreed
    split at hagreed
    · cases hagreed
    · cases hagreed
      exact hlookback

theorem lookback_of_schedule (h : Around p.trackers before u after)
    (hscheduled : (p.schedule round u.retain).1 = .ok (some k)) : k.range.lookback = u.retain := by
  unfold schedule claimMark at hscheduled
  split at hscheduled
  · cases hscheduled
  next q hclaim =>
  split at hclaim <;> cases hclaim
  exact lookback_of_negotiate (p := { p with inFlight := true }) h hscheduled

/-- A ticket that a report gives asks for as many rounds as the tail retains. -/
theorem lookback_of_report {retain : UInt64} (hcrew : Crew retain p.kinds)
    (h : (p.report round).2.queue = p.queue ++ [k]) : k.range.lookback = retain := by
  obtain ⟨before, u, after, haround, rfl⟩ := hcrew.exists_around
  obtain ⟨need, q, hneed, hscheduled⟩ := schedule_of_report h
  cases hfloor : u.windowFloor round with
  | error f =>
    have hcut := needAll_eq_error (p := p.remember round) haround hfloor
    rw [hneed] at hcut
    cases hcut
  | ok floor =>
    have hle : floor ≤ round := by
      have htoNat := (Tail.windowFloor_eq_ok_iff.mp hfloor).2
      have hretain := u.toNat_retain_pos
      exact Round.le_def.mpr (by omega)
    -- The tail needs what it retains, and that is negotiated for.
    rw [needAll_eq_ok (p := p.remember round) haround hfloor hle] at hneed
    cases hneed
    exact lookback_of_schedule (p := p.remember round) haround hscheduled

end Pipeline

/-! ## Tickets that land -/

section Landed

variable {γ : Type} [Guest γ] [KeepsRange γ] {p : Pipeline (Member γ)} {k : Ticket}

namespace Pipeline

theorem range_runCycle (k : Ticket) (p : Pipeline (Member γ)) :
    (p.runCycle k).2.1.range = k.range := by
  rcases runCycle_cases k p with hfruitless | ⟨newBase, k', q, hwrites, heq⟩
  · exact hfruitless.range
  · rw [heq, (settleLanded_result newBase k').1]
    exact hwrites.range

/-- Half the range has the same lookback. -/
theorem lookback_retryHalving (retries attempt : Nat) (k : Ticket) (p : Pipeline (Member γ)) :
    (p.retryHalving retries attempt k).2.1.range.lookback = k.range.lookback := by
  have hcycle : ∀ (k : Ticket) (p : Pipeline (Member γ)),
      (p.runCycle k).2.1.range.lookback = k.range.lookback :=
    fun k p => congrArg CommitRange.lookback (range_runCycle k p)
  induction retries generalizing attempt k p with
  | zero => exact hcycle k p
  | succ retries ih =>
    have hfirst := hcycle k p
    unfold retryHalving
    split
    · next tracker objection k' q heq =>
      rw [heq] at hfirst
      split
      · exact (ih _ _ _).trans hfirst
      · exact hfirst
    · exact hfirst

end Pipeline

namespace Request

omit [Guest γ] [KeepsRange γ] in
theorem range_of_landing? {left : Except Stop Outcome × Ticket × Pipeline (Member γ)}
    {landing : Landing} (h : landing? left = some landing) : landing.range = left.2.1.range := by
  obtain ⟨(stop | newBase | _), k', q⟩ := left
  · cases h
  · cases h
    rfl
  · cases h

/-- The lookback of a ticket survives its cycle, also one with retries. -/
theorem lookback_of_landed {request : Request} {landing : Landing}
    (hrequest : request = .commit k ∨ request = .work k)
    (h : request.landed? p = some landing) : landing.range.lookback = k.range.lookback := by
  rcases hrequest with rfl | rfl
  · have hcycle : landing? (p.runCycle k) = some landing := (commit_spec k p).2.symm.trans h
    rw [range_of_landing? hcycle, Pipeline.range_runCycle]
  · have hcycle : landing? (p.runWithRetries k) = some landing := h
    rw [range_of_landing? hcycle]
    exact Pipeline.lookback_retryHalving _ 0 k p

/-- The range of a ticket that has landed ends at the new durable round. -/
theorem newBase_of_landed {request : Request} {landing : Landing}
    (h : request.landed? p = some landing) :
    landing.range.newBase = .ok landing.newBase ∧
      (request.run p).durable = landing.newBase := by
  rcases request.run_cases p with ⟨-, hnone⟩ | ⟨p₀, k, newBase, k', q, -, hwrites, hafter, hlanded⟩
  · rw [h] at hnone
    cases hnone
  rw [h] at hlanded
  obtain ⟨hticket, hok | ⟨f, hfault⟩⟩ := Pipeline.settleLanded_result (p := q) newBase k'
  swap
  · -- A cycle that is cut short behind its transaction is no landing.
    rcases hresult : q.settleLanded newBase k' with ⟨result, left⟩
    rw [hresult] at hfault hlanded
    obtain rfl : result = _ := hfault
    cases hlanded
  rcases hresult : q.settleLanded newBase k' with ⟨result, k₁, q'⟩
  have hdurable := (Pipeline.settleLanded_frame (q := q) newBase k').2.1
  rw [hresult] at hticket hok hafter hlanded hdurable
  obtain rfl : result = _ := hok
  obtain rfl := Option.some.inj hlanded
  refine ⟨?_, hafter.durable.trans hdurable⟩
  obtain rfl : k₁ = _ := hticket
  show k'.range.newBase = .ok newBase
  rw [hwrites.range]
  exact hwrites.lands

end Request

end Landed

/-- A report to a crew put the ticket into the queue. The worker reports by itself once a cycle is
done, and that is no other report. -/
def Reported (retain : UInt64) (k : Ticket) : Prop :=
  ∃ (p : Pipeline Own) (round : Round),
    Crew retain p.kinds ∧ (p.report round).2.queue = p.queue ++ [k]

/-- Of the durable rounds a tail has in memory those above the one that lies as many rounds back as
it retains. -/
theorem Feed.Kept.isSome_get?_iff {s : Series} {retain : UInt64} {f : Feed} (h : f.Kept s retain)
    {u : Tail} (hu : .tail u ∈ f.pipeline.trackers) {r : Round} (hpos : 0 < r.toNat)
    (hr : r ≤ f.pipeline.durable) :
    (u.entries.get? r).isSome ↔ f.pipeline.durable.back retain < r := by
  have hlatest : r ≤ f.latest := by
    obtain ⟨shown, h⟩ := h
    exact Nat.le_trans hr h.durable_le
  have hwindow : lowestKept retain f.pipeline.durable ≤ r.toNat ↔
      f.pipeline.durable.back retain < r := by
    rw [← inWindow_iff, InWindow, Round.lt_def, Round.toNat_back]
    omega
  rw [h.get?_entries hu, ← hwindow]
  split <;> simp_all

/-- Let a database that was empty at first be used by crews whose tails retain the same number of
rounds, each of them given the blocks of a series one after the other, and let a ticket of a report
land, in the hands of its holder or of the worker. Its lookback is the number of rounds that the
tail retains. Of the rounds from its lookback floor up to the new durable round, round zero aside,
the tail has all in memory but the floor. So the rounds of the lookback are all there if and only if
the new durable round is not above that number. -/
theorem held_iff_above_lookbackFloor {s : Series} {retain : UInt64} {f : Feed}
    (hf : f.Reachable s retain) {k : Ticket} (hk : Reported retain k) {request : Request}
    (hrequest : request = .commit k ∨ request = .work k) {landing : Landing}
    (hlanded : request.landed? f.pipeline = some landing) {u : Tail}
    (hu : .tail u ∈ (request.run f.pipeline).trackers) :
    landing.range.lookback = retain ∧ ∃ floor, landing.range.lookbackFloor = .ok floor ∧
      (∀ r, 0 < r.toNat → floor ≤ r → r ≤ landing.newBase →
        ((u.entries.get? r).isSome ↔ floor < r)) ∧
      ((∀ r, 0 < r.toNat → floor ≤ r → r ≤ landing.newBase → (u.entries.get? r).isSome) ↔
        landing.newBase.toNat ≤ retain.toNat) := by
  obtain ⟨p, round, hcrew, hqueued⟩ := hk
  have hlookback : landing.range.lookback = retain :=
    (Request.lookback_of_landed hrequest hlanded).trans (Pipeline.lookback_of_report hcrew hqueued)
  obtain ⟨hnew, hdurable⟩ := Request.newBase_of_landed hlanded
  have hkept := Feed.kept_step (Feed.kept_of_reachable hf) (.request f request)
  have hheld : ∀ r, 0 < r.toNat → landing.newBase.back retain ≤ r → r ≤ landing.newBase →
      ((u.entries.get? r).isSome ↔ landing.newBase.back retain < r) := by
    intro r hpos _ hr
    rw [← hdurable] at hr ⊢
    exact hkept.isSome_get?_iff hu hpos hr
  refine ⟨hlookback, landing.newBase.back retain, ?_, hheld, ?_⟩
  · rw [CommitRange.lookbackFloor, hnew, hlookback]
    rfl
  constructor
  -- A new durable round above the number of rounds retained has a floor that is a round of its own.
  · intro hall
    by_contra hnot
    have hback := Round.toNat_back landing.newBase retain
    have hpos : 0 < (landing.newBase.back retain).toNat := by omega
    have hbelow : landing.newBase.back retain ≤ landing.newBase := by
      rw [Round.le_def]
      omega
    have hfloor := (hheld _ hpos (Nat.le_refl _) hbelow).mp (hall _ hpos (Nat.le_refl _) hbelow)
    exact Nat.lt_irrefl _ hfloor
  · intro hfew r hpos hfloor hr
    rw [hheld r hpos hfloor hr, Round.lt_def, Round.toNat_back]
    omega

/-- A crew that retains two rounds, once it was loaded from a ledger of five blocks and the fifth
round was reported. -/
def fedFive : Feed where
  pipeline := Request.run (.report ⟨5⟩) ((newCrew .empty).load (plainSeries.upTo ⟨5⟩)).2
  latest := ⟨5⟩

/-- The worker lands three rounds. The lookback floor is the first round, and that is gone. -/
theorem held_iff_above_lookbackFloor_fedFive :
    let request := Request.work ⟨⟨.zero, 3, 2⟩, ⟨5⟩, false⟩
    ∃ landing u, request.landed? fedFive.pipeline = some landing ∧
      landing.range.lookbackFloor = .ok ⟨1⟩ ∧ .tail u ∈ (request.run fedFive.pipeline).trackers ∧
        ¬(u.entries.get? ⟨1⟩).isSome ∧ (u.entries.get? ⟨2⟩).isSome := by
  intro request
  have hcrew : Crew 2 (newCrew .empty).kinds :=
    show [Kind.memory, .durable, .tail 2].Perm [.tail 2, .memory, .durable] by decide
  have hstart := @Feed.Starts.load plainSeries 2 .empty (newCrew .empty) _ _ hcrew rfl
    (plainSeries.serves_upTo ⟨5⟩) (Prod.ext rfl rfl)
  have hreport := fun f => @Feed.Step.request plainSeries 2 f (.report ⟨5⟩)
  have hreachable : fedFive.Reachable plainSeries 2 := ⟨_, hstart, .single (hreport _)⟩
  have hreported : Reported 2 ⟨⟨.zero, 3, 2⟩, ⟨5⟩, false⟩ :=
    ⟨((newCrew .empty).load (plainSeries.upTo ⟨5⟩)).2, ⟨5⟩, hcrew, rfl⟩
  obtain ⟨u, hu⟩ : ∃ u, .tail u ∈ (request.run fedFive.pipeline).trackers :=
    ⟨_, List.mem_cons_of_mem _ (List.mem_cons_of_mem _ List.mem_cons_self)⟩
  have hlanded : request.landed? fedFive.pipeline = some ⟨⟨.zero, 3, 2⟩, ⟨3⟩⟩ := rfl
  obtain ⟨-, floor, hfloor, hheld, -⟩ :=
    held_iff_above_lookbackFloor hreachable hreported (.inr rfl) hlanded hu
  obtain rfl : ⟨1⟩ = floor := Except.ok.inj hfloor
  refine ⟨_, u, hlanded, rfl, hu, ?_, ?_⟩
  · rw [hheld ⟨1⟩ (by decide) (by decide) (by decide)]
    decide
  · rw [hheld ⟨2⟩ (by decide) (by decide) (by decide)]
    decide

end CommitPipeline
