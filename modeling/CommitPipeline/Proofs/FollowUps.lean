import CommitPipeline.Proofs.StrandedMark

/-!
# Cycles that follow each other

A worker that completes a cycle reports once more if a higher round was reported meanwhile, and so
puts a ticket into its own queue. The chain is short. One ticket is under way at a time, the ticket
of a follow-up is for the highest round that was reported, and its own cycle is not followed up,
however it ends.

The module introduces:

* `Pipeline.attempts` — the cycles that the worker runs for one ticket;
* `Deed.Quiet` — what may be done while no further round is reported;
* `Custody.due` — the calls that are at most to come from the worker, with `Deed.due_run` on what
  a quiet deed does to them;
* `Deed.takings`, `Deed.attempts` — the tickets that are taken, and the cycles that are run;
* `followUps_end` — what is still to come once no further round is reported.
-/

namespace CommitPipeline

namespace Pipeline

variable {τ : Type} {p q r : Pipeline τ} {k : Ticket}

/-- From `p` to `q` mark, queue, highest reported round and settings are what they were. -/
structure Undisturbed (p q : Pipeline τ) : Prop extends p.SameMark q where
  reported : q.reported = p.reported
  config : q.config = p.config

/-- Two steps that disturb nothing are one. -/
theorem Undisturbed.trans (h : p.Undisturbed q) (h' : q.Undisturbed r) : p.Undisturbed r where
  toSameMark := h.toSameMark.trans h'.toSameMark
  reported := h'.reported.trans h.reported
  config := h'.config.trans h.config

/-- A question to trackers disturbs nothing of this. -/
theorem Asked.undisturbed (h : p.Asked q) : p.Undisturbed q := by
  obtain ⟨_, _, rfl⟩ := h
  exact ⟨⟨rfl, rfl, rfl⟩, rfl, rfl⟩

/-- Nor does a cycle, however it ends. -/
theorem CycleEnd.undisturbed {result : Except Stop Outcome} (h : p.CycleEnd result q) :
    p.Undisturbed q := by
  cases h with
  | fruitless _ hasked => exact hasked.undisturbed
  | written store newBase _ _ hasked =>
    have hwritten : p.Undisturbed { p with store, durable := newBase, flushed := true } :=
      ⟨⟨rfl, rfl, rfl⟩, rfl, rfl⟩
    exact hwritten.trans hasked.undisturbed

/-- A ticket is queued or refused under the same reported round. -/
theorem reported_dispatch (k : Ticket) (p : Pipeline τ) : (p.dispatch k).reported = p.reported := by
  unfold dispatch enqueue
  cases p.intake with
  | gone => rfl
  | unclaimed | working =>
    by_cases hroom : p.queue.length < p.config.queueCapacity.toNat <;> simp only [hroom] <;> rfl

/-- It goes to the end of the queue, or the queue stays. -/
theorem queue_dispatch (k : Ticket) (p : Pipeline τ) :
    (p.dispatch k).queue = p.queue ∨ (p.dispatch k).queue = p.queue ++ [k] := by
  rcases dispatch_cases k p with ⟨-, hqueued⟩ | hback
  · exact .inr hqueued.queue
  · exact .inl hback.queue

variable [Tracker τ]

/-- A load disturbs nothing of this. -/
theorem undisturbed_load (ledger : LedgerView) (p : Pipeline τ) :
    p.Undisturbed (p.load ledger).2 := by
  refine load_preserves (I := fun q => p.Undisturbed q) ⟨⟨rfl, rfl, rfl⟩, rfl, rfl⟩
    (asked_ask _).undisturbed ?_ ?_ ?_
  · exact fun q r h => h.trans (asked_log _).undisturbed
  · exact fun q block delta h => h.trans (asked_newBlock block delta).undisturbed
  · exact fun q replayed h => h.trans ⟨⟨rfl, rfl, rfl⟩, rfl, rfl⟩

/-- The cycles that the worker runs leave mark and queue to what comes after them. -/
theorem undisturbed_work (k : Ticket) (p : Pipeline τ) :
    p.Undisturbed ((Request.work k).run p) :=
  (cycleEnd_runWithRetries k p).undisturbed.trans (asked_log _).undisturbed

/-! ## The tickets of reports -/

omit [Tracker τ] in
/-- A ticket is for the round that was negotiated about. -/
theorem committed_of_conclude {committed : Round} {range : CommitRange}
    (h : p.conclude committed range = (.ok (some k), q)) : k.committed = committed := by
  unfold conclude at h
  split at h
  · cases h
  · split at h <;> cases h
    rfl

/-- A ticket is for the round that was negotiated for. -/
theorem committed_of_schedule {committed : Round} {lookback : UInt64}
    (h : p.schedule committed lookback = (.ok (some k), q)) : k.committed = committed := by
  unfold schedule claimMark at h
  by_cases hmark : p.inFlight
  · rw [if_pos hmark] at h
    cases h
  rw [if_neg hmark] at h
  simp only [negotiate] at h
  split at h
  · cases h
  split at h
  · cases h
  · cases h
  · exact committed_of_conclude h

/-- A report is remembered, and queues a ticket for its own round or none. -/
theorem report_left (round : Round) (p : Pipeline τ) :
    (p.report round).2.reported = max p.reported round ∧
      ((p.report round).2.queue = p.queue ∨
        ∃ k, k.committed = round ∧ (p.report round).2.queue = p.queue ++ [k]) := by
  have hneed := (asked_needAll (p := p.remember round) round).undisturbed
  unfold report
  rcases h : (p.remember round).needAll round with ⟨f | need, q⟩ <;> rw [h] at hneed
  · exact ⟨hneed.reported, .inl hneed.queue⟩
  obtain ⟨inFlight, hasked⟩ := schedule_frame (p := q) round need.lookback
  have hreported := hasked.undisturbed.reported.trans hneed.reported
  have hqueue := hasked.undisturbed.queue.trans hneed.queue
  rcases h' : q.schedule round need.lookback with ⟨f | _ | k, q'⟩ <;>
    rw [h'] at hreported hqueue <;> simp only [h']
  · exact ⟨hreported, .inl hqueue⟩
  · exact ⟨hreported, .inl hqueue⟩
  · refine ⟨(reported_dispatch k q').trans hreported, ?_⟩
    rcases queue_dispatch k q' with hsame | hput
    · exact .inl (hsame.trans hqueue)
    · exact .inr ⟨k, committed_of_schedule h', hput.trans (congrArg (· ++ [k]) hqueue)⟩

/-- Looking for more to do does not end the worker. -/
theorem intake_complete (handled : Round) (p : Pipeline τ) :
    (p.complete handled).2.intake = p.intake := by
  obtain ⟨result, hreport, -⟩ := reported_complete handled p
  generalize (p.complete handled).2 = q at hreport
  cases hreport with
  | nothing hsame => exact hsame.intake
  | queued hfree hopen hmarked => exact hmarked.intake
  | cutShort hfree hmarked => exact hmarked.intake

/-- A cycle that is completed is followed up by a ticket for the highest reported round, if that is
above the round of the cycle, or by nothing. -/
theorem complete_left (handled : Round) (p : Pipeline τ) :
    (p.complete handled).2.reported = p.reported ∧
      ((p.complete handled).2.queue = p.queue ∨
        handled < p.reported ∧
          ∃ k, k.committed = p.reported ∧ (p.complete handled).2.queue = p.queue ++ [k]) := by
  obtain ⟨-, heq⟩ | ⟨hless, result, q, hreport, heq⟩ := complete_cases handled p <;> rw [heq]
  · exact ⟨rfl, .inl rfl⟩
  · -- To remember the highest reported round once more changes nothing.
    have hmax : max p.reported p.reported = p.reported := ite_self _
    obtain ⟨hreported, hqueue⟩ := report_left p.reported
      (p.clearMark.log (.followUp handled p.reported))
    rw [hreport] at hreported hqueue
    exact ⟨hreported.trans hmax, hqueue.imp_right fun hput => ⟨hless, hput⟩⟩

/-! ## Reports that are cut short -/

/-- A report of a round is cut short: in a tracker that is asked what it needs, in one that is asked
to refine the range, or at the range that they leave, if that ends above the last round. -/
inductive Derails (round : Round) (p : Pipeline τ) : Prop
  | need {f : Fault} (hcut : ((p.remember round).needAll round).1 = .error f)
  | refine {need : Need} {q : Pipeline τ} {f : Fault}
      (hneed : (p.remember round).needAll round = (.ok need, q))
      (hcut : (({ q with inFlight := true } : Pipeline τ).refineAll round
        (q.propose round need.lookback)).1 = .error (.fault f))
  | endless {need : Need} {q : Pipeline τ} {range : CommitRange} {f : Fault}
      (hneed : (p.remember round).needAll round = (.ok need, q))
      (hrange : (({ q with inFlight := true } : Pipeline τ).refineAll round
        (q.propose round need.lookback)).1 = .ok range)
      (hend : range.newBase = .error f)

/-- A negotiation is cut short where a range is refined or concluded, with the mark set. -/
theorem schedule_eq_error {committed : Round} {lookback : UInt64} {f : Fault}
    (h : (p.schedule committed lookback).1 = .error f) :
    (({ p with inFlight := true } : Pipeline τ).refineAll committed
        (p.propose committed lookback)).1 = .error (.fault f) ∨
      ∃ range, (({ p with inFlight := true } : Pipeline τ).refineAll committed
        (p.propose committed lookback)).1 = .ok range ∧ range.newBase = .error f := by
  have hpropose : ({ p with inFlight := true } : Pipeline τ).propose committed lookback =
      p.propose committed lookback := rfl
  -- Without the mark, or with nothing to propose, the answer is no error.
  unfold schedule claimMark at h
  split at h
  · cases h
  next q hclaim =>
  split at hclaim <;> cases hclaim
  simp only [negotiate, hpropose] at h
  split at h
  · cases h
  rcases hrefine : ({ p with inFlight := true } : Pipeline τ).refineAll committed
    (p.propose committed lookback) with ⟨(tracker | f') | range, q⟩ <;> rw [hrefine] at h
  · cases h
  · cases h
    exact .inl rfl
  · -- The trackers agreed, and what they left is too long for the word.
    refine .inr ⟨range, rfl, ?_⟩
    simp only [conclude] at h
    split at h
    · cases h
    · split at h
      · next f' hend =>
        cases h
        exact hend
      · cases h

/-- A report that is cut short derails, in one of the three ways there are. -/
theorem derails_of_report {round : Round} {f : Fault} (h : (p.report round).1 = .error f) :
    p.Derails round := by
  unfold report at h
  rcases hneed : (p.remember round).needAll round with ⟨f' | need, q⟩ <;> rw [hneed] at h
  · exact .need (congrArg Prod.fst hneed)
  have hschedule : (q.schedule round need.lookback).1 = .error f := by
    rcases heq : q.schedule round need.lookback with ⟨f' | _ | k, q'⟩ <;> simp only [heq] at h <;>
      cases h
    rfl
  rcases schedule_eq_error hschedule with hcut | ⟨range, hrange, hend⟩
  · exact .refine hneed hcut
  · exact .endless hneed hrange hend

/-! ## The cycles of one ticket -/

/-- The cycles that are run for one ticket: the first one, and after an objection one with half the
range, as long as retries are left. -/
def attempts : (retries attempt : Nat) → Ticket → Pipeline τ → List (Ticket × Pipeline τ)
  | 0, _, k, p => [(k, p)]
  | retries + 1, attempt, k, p =>
    (k, p) ::
      match p.runCycle k with
      | (.error (.error (.cannotPrepare tracker objection)), k, p) =>
        if 1 < k.range.length then
          let k := { k with range := { k.range with length := k.range.length / 2 } }
          attempts retries (attempt + 1) k
            (p.log (.narrowed tracker objection (attempt + 1) k.range.length))
        else []
      | _ => []

/-- A cycle is the last one for its ticket, or a tracker objected to it and one with half the range
follows. -/
theorem attempts_cases (retries attempt : Nat) (k : Ticket) (p : Pipeline τ) :
    (attempts (retries + 1) attempt k p = [(k, p)] ∧
      retryHalving (retries + 1) attempt k p = p.runCycle k) ∨
    ∃ k' e, let q := (p.runCycle k).2.2.log e
      attempts (retries + 1) attempt k p = (k, p) :: attempts retries (attempt + 1) k' q ∧
        retryHalving (retries + 1) attempt k p = retryHalving retries (attempt + 1) k' q := by
  rw [attempts, retryHalving]
  rcases p.runCycle k with ⟨(e | f) | outcome, k', q⟩
  · cases e with
    | cannotPrepare tracker objection =>
      by_cases hlong : 1 < k'.range.length
      · simp only [if_pos hlong]
        exact .inr ⟨_, _, rfl, rfl⟩
      · exact .inl ⟨congrArg _ (if_neg hlong), if_neg hlong⟩
    | _ => exact .inl ⟨rfl, rfl⟩
  · exact .inl ⟨rfl, rfl⟩
  · exact .inl ⟨rfl, rfl⟩

/-- There is one attempt, and one more for each retry. -/
theorem length_attempts_le (retries attempt : Nat) (k : Ticket) (p : Pipeline τ) :
    (attempts retries attempt k p).length ≤ retries + 1 := by
  induction retries generalizing attempt k p with
  | zero => exact Nat.le_refl 1
  | succ retries ih =>
    rcases attempts_cases retries attempt k p with ⟨heq, -⟩ | ⟨k', e, heq, -⟩ <;> rw [heq]
    · exact Nat.succ_le_succ (Nat.zero_le _)
    · exact Nat.succ_le_succ (ih _ k' _)

/-- What the worker comes to with a ticket is what the last of its cycles comes to. -/
theorem exists_last_attempt (retries attempt : Nat) (k : Ticket) (p : Pipeline τ) :
    ∃ earlier k' q, attempts retries attempt k p = earlier ++ [(k', q)] ∧
      retryHalving retries attempt k p = q.runCycle k' := by
  induction retries generalizing attempt k p with
  | zero => exact ⟨[], k, p, rfl, rfl⟩
  | succ retries ih =>
    rcases attempts_cases retries attempt k p with ⟨heq, hlast⟩ | ⟨k₁, e, heq, hlater⟩
    · exact ⟨[], k, p, heq, hlast⟩
    · obtain ⟨earlier, k', q, hattempts, hlast⟩ := ih (attempt + 1) k₁ _
      exact ⟨(k, p) :: earlier, k', q, by rw [heq, hattempts, List.cons_append],
        hlater.trans hlast⟩

end Pipeline

/-! ## What is due -/

namespace Tally

/-- One ticket is under way at a time, and under the mark. -/
structure InTurn (t : Tally) : Prop where
  single : t.queue = [] ∨ ∃ k, t.queue = [k] ∧ t.hand = .free
  marked : t.mark = false → t.queue = [] ∧ t.hand = .free

end Tally

namespace Deed

/-- What may be done while no round is reported, no range is negotiated, and nobody but the worker
runs a cycle. -/
def Quiet : Deed → Prop
  | load _ | newBlock .. | close | startWorker | take | work | complete => True
  | report _ | schedule .. | commitHeld _ | commitOther _ | retire => False

/-- What a deed is while all tickets come from reports and go to the worker. -/
def Ordinary (d : Deed) : Prop := d.Quiet ∨ ∃ round, d = .report round

/-- One turn of the worker. -/
def turn : List Deed := [.take, .work, .complete]

def isTake : Deed → Bool
  | take => true
  | _ => false

def isWork : Deed → Bool
  | work => true
  | _ => false

end Deed

namespace Custody

variable {τ : Type}

/-- The turn that follows a cycle for a round, if a higher round was reported. -/
def again (n : Custody τ) (committed : Round) : List Deed :=
  if committed < n.pipeline.reported then Deed.turn else []

/-- The calls that are at most to come from the worker while no further round is reported. -/
def due (n : Custody τ) : List Deed :=
  match n.hand, n.pipeline.queue with
  | .holding k, _ => .work :: .complete :: n.again k.committed
  | .ran committed, _ => .complete :: n.again committed
  | .free, k :: _ => .take :: .work :: .complete :: n.again k.committed
  | .free, [] => []

variable {n : Custody τ} {k : Ticket} {committed : Round}

/-- Who holds a ticket has its cycle to run, and perhaps a turn after it. -/
theorem due_of_holding (h : n.hand = .holding k) :
    n.due = .work :: .complete :: n.again k.committed := by
  rw [due, h]

/-- Who has run a cycle has it to complete, and perhaps a turn after it. -/
theorem due_of_ran (h : n.hand = .ran committed) : n.due = .complete :: n.again committed := by
  rw [due, h]

/-- A worker with free hands has the first ticket of the queue to take. -/
theorem due_of_queue {rest : List Ticket} (hfree : n.hand = .free)
    (hqueue : n.pipeline.queue = k :: rest) :
    n.due = .take :: .work :: .complete :: n.again k.committed := by
  rw [due, hfree, hqueue]

/-- Nothing is due to a worker with free hands and an empty queue, and to no other. -/
theorem due_eq_nil_iff : n.due = [] ↔ n.hand = .free ∧ n.pipeline.queue = [] := by
  unfold due
  constructor
  · intro h
    split at h
    · cases h
    · cases h
    · cases h
    · next hfree hempty => exact ⟨hfree, hempty⟩
  · rintro ⟨hfree, hempty⟩
    rw [hfree, hempty]

/-- Highest reported round and settings are what they were. -/
structure SameReported (n m : Custody τ) : Prop where
  reported : m.pipeline.reported = n.pipeline.reported
  config : m.pipeline.config = n.pipeline.config

theorem SameReported.again {n m : Custody τ} (h : n.SameReported m) (committed : Round) :
    m.again committed = n.again committed := by
  simp only [Custody.again, h.reported]

end Custody

namespace Deed

variable {τ : Type} [Tracker τ] {n : Custody τ} {d : Deed}

/-- Quiet deeds and reports keep to one ticket at a time. -/
theorem Leaves.inTurn {t : Tally} (h : d.Leaves n t) (hd : d.Ordinary) (hn : n.tally.InTurn) :
    t.InTurn := by
  have hempty : n.tally.mark = false → n.tally.queue = [] := fun hfree => (hn.marked hfree).1
  have hbusy : n.tally.hand ≠ .free → n.tally.queue = [] := by
    intro hhand
    rcases hn.single with hqueue | ⟨k, -, hfree⟩
    · exact hqueue
    · exact absurd hfree hhand
  cases h with
  | nothing => exact hn
  | queues k hfree hopen =>
    obtain ⟨hqueue, hhand⟩ := hn.marked hfree
    exact ⟨.inr ⟨k, by simp [hqueue], hhand⟩, nofun⟩
  | gives k hfree => exact ⟨hn.single, nofun⟩
  | cutsNegotiation hfree hstrands => exact ⟨hn.single, nofun⟩
  | takes hfree hopen hqueue =>
    -- With a ticket in the queue the mark is set, and it was the only one.
    have hmark : n.tally.mark ≠ false := fun hmark => by simp [hempty hmark] at hqueue
    rcases hn.single with hnone | ⟨k, hone, -⟩
    · simp [hnone] at hqueue
    · rw [hone] at hqueue
      obtain ⟨-, rfl⟩ := List.cons.inj hqueue
      exact ⟨.inl rfl, fun hfree => absurd hfree hmark⟩
  | works hholding =>
    have hqueue := hbusy (by simp [hholding])
    refine ⟨.inl hqueue, fun hmark => ?_⟩
    have hhand := (hn.marked hmark).2
    cases hholding.symm.trans hhand
  | completes hran =>
    have hqueue := hbusy (by simp [hran])
    exact ⟨.inl hqueue, fun _ => ⟨hqueue, rfl⟩⟩
  | followsUp k hran hopen =>
    have hqueue := hbusy (by simp [hran])
    exact ⟨.inr ⟨k, by simp [hqueue], rfl⟩, nofun⟩
  | cutsFollowUp mark hran hstrands => exact ⟨.inl rfl, fun _ => ⟨rfl, rfl⟩⟩
  | runsHeld | cutsHeld | runsOther | retires => rcases hd with hquiet | ⟨round, heq⟩ <;> trivial

/-- One ticket is under way at a time all along an ordinary run. -/
theorem inTurn_runAll {deeds : List Deed} (hdeeds : ∀ d ∈ deeds, d.Ordinary)
    (hn : n.tally.InTurn) : (runAll deeds n).tally.InTurn := by
  induction deeds generalizing n with
  | nil => exact hn
  | cons d rest ih =>
    have hd := (leaves_run d n).inTurn (hdeeds d List.mem_cons_self) hn
    exact ih (fun d hmem => hdeeds d (List.mem_cons_of_mem _ hmem)) hd

/-! ## Quiet deeds -/

/-- The ticket that is taken out of the queue, if one is. -/
def taken (d : Deed) (n : Custody τ) : List Ticket :=
  match d, n.hand, n.pipeline.takeTicket with
  | take, .free, some (k, _) => [k]
  | _, _, _ => []

/-- The cycles that the worker runs. -/
def tried (d : Deed) (n : Custody τ) : List (Ticket × Pipeline τ) :=
  match d, n.hand with
  | work, .holding k => Pipeline.attempts n.pipeline.config.prepareRetries.toNat 0 k n.pipeline
  | _, _ => []

/-- All that a quiet deed does while one ticket is under way at a time. -/
inductive Proceeds (n : Custody τ) : Deed → Custody τ → Prop
  | waits {d : Deed} {m : Custody τ} (hhand : m.hand = n.hand)
      (hqueue : m.pipeline.queue = n.pipeline.queue)
      (hworking : n.pipeline.intake = .working → m.pipeline.intake = .working)
      (htaken : d.taken n = []) (htried : d.tried n = [])
      (hidle : n.pipeline.intake = .working → ∀ rest, n.due ≠ d :: rest) : Proceeds n d m
  | takes {k : Ticket} {m : Custody τ} (hfree : n.hand = .free) (hqueue : n.pipeline.queue = [k])
      (htaken : take.taken n = [k]) (hhand : m.hand = .holding k)
      (hempty : m.pipeline.queue = []) (hworking : m.pipeline.intake = .working) :
      Proceeds n .take m
  | works {k : Ticket} {m : Custody τ} (hholding : n.hand = .holding k)
      (hhand : m.hand = .ran k.committed) (hqueue : m.pipeline.queue = n.pipeline.queue)
      (hintake : m.pipeline.intake = n.pipeline.intake) : Proceeds n .work m
  -- The worker may be cut short in its report; then the queue is gone, but nothing was in it.
  | completes {committed : Round} {m : Custody τ} (hran : n.hand = .ran committed)
      (hqueue : n.pipeline.queue = []) (hhand : m.hand = .free) (hempty : m.pipeline.queue = []) :
      Proceeds n .complete m
  | followsUp {committed : Round} {k : Ticket} {m : Custody τ} (hran : n.hand = .ran committed)
      (hqueue : n.pipeline.queue = []) (hless : committed < n.pipeline.reported)
      (hround : k.committed = n.pipeline.reported) (hhand : m.hand = .free)
      (hput : m.pipeline.queue = [k]) (hintake : m.pipeline.intake = n.pipeline.intake) :
      Proceeds n .complete m

omit [Tracker τ] in
/-- Only the worker's calls are ever due. -/
theorem due_ne_cons (hd : d ≠ .take ∧ d ≠ .work ∧ d ≠ .complete) (rest : List Deed) :
    n.due ≠ d :: rest := by
  intro heq
  unfold Custody.due at heq
  split at heq
  · exact hd.2.1 (List.cons.inj heq).1.symm
  · exact hd.2.2 (List.cons.inj heq).1.symm
  · exact hd.1 (List.cons.inj heq).1.symm
  · cases heq

/-- Whoever leaves mark and queue alone, and is not the worker, does nothing to what is due. -/
theorem proceeds_of_frame {q : Pipeline τ} (hd : d ≠ .take ∧ d ≠ .work ∧ d ≠ .complete)
    (hqueue : q.queue = n.pipeline.queue)
    (hworking : n.pipeline.intake = .working → q.intake = .working) :
    Proceeds n d { n with pipeline := q } := by
  refine .waits rfl hqueue hworking ?_ ?_ fun _ => due_ne_cons hd
  · cases d <;> first | rfl | exact absurd rfl hd.1
  · cases d <;> first | rfl | exact absurd rfl hd.2.1

/-- Taking a ticket is a quiet step. -/
theorem proceeds_take (hn : n.tally.InTurn) :
    n.SameReported (Deed.take.run n) ∧ Proceeds n .take (Deed.take.run n) := by
  rw [run]
  split
  · next k q hfree htake =>
    obtain ⟨hintake, left, hqueue, rfl⟩ := Pipeline.takeTicket_eq_some htake
    refine ⟨⟨rfl, rfl⟩, ?_⟩
    -- The ticket was the only one.
    have hone : left = [] := by
      rcases hn.single with hnone | ⟨k', heq, -⟩
      · exact absurd (hqueue.symm.trans hnone) (List.cons_ne_nil _ _)
      · exact (List.cons.inj (hqueue.symm.trans heq)).2
    exact .takes hfree (hone ▸ hqueue) (by simp only [taken, hfree, htake]) rfl hone hintake
  · next hnone =>
    refine ⟨⟨rfl, rfl⟩, .waits rfl rfl id ?_ rfl fun hworking rest heq => ?_⟩
    · unfold taken
      split
      · next hfree htake => exact absurd htake (hnone _ _ hfree)
      · rfl
    · cases hhand : n.hand with
      | holding k => cases (Custody.due_of_holding hhand).symm.trans heq
      | ran committed => cases (Custody.due_of_ran hhand).symm.trans heq
      | free =>
        cases hqueue : n.pipeline.queue with
        | nil => cases (Custody.due_eq_nil_iff.mpr ⟨hhand, hqueue⟩).symm.trans heq
        | cons k left => exact hnone _ _ hhand (by rw [Pipeline.takeTicket, hworking, hqueue])

/-- So is running its cycles. -/
theorem proceeds_work (n : Custody τ) :
    n.SameReported (Deed.work.run n) ∧ Proceeds n .work (Deed.work.run n) := by
  cases hhand : n.hand with
  | holding k =>
    have hwork := Pipeline.undisturbed_work k n.pipeline
    simp only [run, hhand]
    exact ⟨⟨hwork.reported, hwork.config⟩, .works hhand rfl hwork.queue hwork.intake⟩
  | free | ran committed =>
    have hrun : Deed.work.run n = n := by simp only [run, hhand]
    rw [hrun]
    refine ⟨⟨rfl, rfl⟩, .waits rfl rfl id rfl (by simp only [tried, hhand]) fun _ rest heq => ?_⟩
    unfold Custody.due at heq
    split at heq <;> simp_all

/-- So is completing it, though a turn for a higher round may come up. -/
theorem proceeds_complete (hn : n.tally.InTurn) :
    n.SameReported (Deed.complete.run n) ∧ Proceeds n .complete (Deed.complete.run n) := by
  cases hhand : n.hand with
  | ran committed =>
    -- What the worker has run was the only ticket under way.
    have hempty : n.pipeline.queue = [] := by
      rcases hn.single with hqueue | ⟨k, -, hfree⟩
      · exact hqueue
      · cases hhand.symm.trans hfree
    obtain ⟨hreported, hqueue⟩ := Pipeline.complete_left committed n.pipeline
    have hconfig := (Pipeline.sameBase_complete (p := n.pipeline) committed).config
    have hintake := Pipeline.intake_complete committed n.pipeline
    simp only [run, hhand]
    rcases hcomplete : n.pipeline.complete committed with ⟨f | _, q⟩ <;>
      rw [hcomplete] at hreported hqueue hconfig hintake
    · exact ⟨⟨hreported, hconfig⟩, .completes hhand hempty rfl rfl⟩
    · refine ⟨⟨hreported, hconfig⟩, ?_⟩
      rcases hqueue with hsame | ⟨hless, k, hround, hput⟩
      · exact .completes hhand hempty rfl (hsame.trans hempty)
      · exact .followsUp hhand hempty hless hround rfl (by simpa [hempty] using hput) hintake
  | free | holding k =>
    have hrun : Deed.complete.run n = n := by simp only [run, hhand]
    rw [hrun]
    refine ⟨⟨rfl, rfl⟩, .waits rfl rfl id rfl rfl fun _ rest heq => ?_⟩
    -- Nothing that is due to a worker without a cycle to complete begins with completing one.
    unfold Custody.due at heq
    split at heq <;> simp_all

/-- What a quiet deed does while one ticket is under way at a time. -/
theorem proceeds_run (hd : d.Quiet) (hn : n.tally.InTurn) :
    n.SameReported (d.run n) ∧ Proceeds n d (d.run n) := by
  cases d with
  | load ledger =>
    have hload := Pipeline.undisturbed_load ledger n.pipeline
    exact ⟨⟨hload.reported, hload.config⟩,
      proceeds_of_frame (by simp) hload.queue hload.intake.trans⟩
  | newBlock block delta =>
    have hblock := (Pipeline.asked_newBlock (p := n.pipeline) block delta).undisturbed
    exact ⟨⟨hblock.reported, hblock.config⟩,
      proceeds_of_frame (by simp) hblock.queue hblock.intake.trans⟩
  | close =>
    have hclose := (Pipeline.asked_close n.pipeline).undisturbed
    exact ⟨⟨hclose.reported, hclose.config⟩,
      proceeds_of_frame (by simp) hclose.queue hclose.intake.trans⟩
  | startWorker =>
    -- The worker that has the queue keeps it.
    rw [run]
    obtain heq | ⟨-, heq⟩ := Pipeline.run_startWorker n.pipeline <;> rw [heq]
    · exact ⟨⟨rfl, rfl⟩, proceeds_of_frame (by simp) rfl id⟩
    · exact ⟨⟨rfl, rfl⟩, proceeds_of_frame (by simp) rfl fun _ => rfl⟩
  | take => exact proceeds_take hn
  | work => exact proceeds_work n
  | complete => exact proceeds_complete hn
  | report | schedule | commitHeld | commitOther | retire => exact hd.elim

/-! ## What is left of what is due -/

namespace Proceeds

variable {m : Custody τ}

/-- What is due stays as it is, or its first call is done. -/
theorem due_cases (h : Proceeds n d m) (hsame : n.SameReported m) :
    (m.due = n.due ∧ d.taken n = [] ∧ d.tried n = [] ∧
      (n.pipeline.intake = .working →
        m.pipeline.intake = .working ∧ ∀ rest, n.due ≠ d :: rest)) ∨
    ∃ rest, n.due = d :: rest ∧ m.due.Sublist rest ∧
      (n.pipeline.intake = .working → m.pipeline.intake = .working ∨ m.due = []) := by
  cases h with
  | waits hhand hqueue hworking htaken htried hidle =>
    refine .inl ⟨?_, htaken, htried, fun h => ⟨hworking h, hidle h⟩⟩
    unfold Custody.due
    rw [hhand, hqueue]
    simp only [hsame.again]
  | @takes k _ hfree hqueue htaken hhand hempty hworking =>
    refine .inr ⟨_, Custody.due_of_queue hfree hqueue, ?_, fun _ => .inl hworking⟩
    rw [Custody.due_of_holding hhand, hsame.again]
  | @works k _ hholding hhand hqueue hintake =>
    refine .inr ⟨_, Custody.due_of_holding hholding, ?_, fun h => .inl (hintake.trans h)⟩
    rw [Custody.due_of_ran hhand, hsame.again]
  | completes hran hqueue hhand hempty =>
    have hdue : m.due = [] := Custody.due_eq_nil_iff.mpr ⟨hhand, hempty⟩
    refine .inr ⟨_, Custody.due_of_ran hran, ?_, fun _ => .inr hdue⟩
    rw [hdue]
    exact List.nil_sublist _
  | @followsUp committed k _ hran hqueue hless hround hhand hput hintake =>
    refine .inr ⟨_, Custody.due_of_ran hran, ?_, fun h => .inl (hintake.trans h)⟩
    -- The follow-up is for the highest reported round, so nothing follows it up.
    have hlast : n.again k.committed = [] := if_neg (hround ▸ Nat.lt_irrefl _)
    have hagain : n.again committed = turn := if_pos hless
    rw [Custody.due_of_queue hhand hput, hsame.again, hlast, hagain]
    exact .refl _

/-- Every ticket is taken or still in the queue, and only follow-ups come in. -/
theorem taken_append_queue (h : Proceeds n d m) :
    ∃ followUps, d.taken n ++ m.pipeline.queue = n.pipeline.queue ++ followUps ∧
      ∀ k ∈ followUps, k.committed = n.pipeline.reported := by
  cases h with
  | waits hhand hqueue hworking htaken htried hidle => exact ⟨[], by simp [htaken, hqueue], by simp⟩
  | takes hfree hqueue htaken hhand hempty hworking =>
    exact ⟨[], by simp [htaken, hqueue, hempty], by simp⟩
  | works hholding hhand hqueue hintake => exact ⟨[], by simp [taken, hqueue], by simp⟩
  | completes hran hqueue hhand hempty => exact ⟨[], by simp [taken, hqueue, hempty], by simp⟩
  | @followsUp committed k _ hran hqueue hless hround hhand hput hintake =>
    exact ⟨[k], by simp [taken, hqueue, hput], by simpa using hround⟩

end Proceeds

omit [Tracker τ] in
/-- A deed takes at most one ticket, and only if it is one of taking. -/
theorem length_taken_le (d : Deed) (n : Custody τ) :
    (d.taken n).length ≤ [d].countP isTake := by
  unfold taken
  split
  · exact Nat.le_refl 1
  · exact Nat.zero_le _

/-- The worker runs at most the retries and one cycle, and only when it works. -/
theorem length_tried_le (d : Deed) (n : Custody τ) :
    (d.tried n).length ≤
      (n.pipeline.config.prepareRetries.toNat + 1) * [d].countP isWork := by
  unfold tried
  split
  · exact (Pipeline.length_attempts_le _ _ _ n.pipeline).trans_eq (Nat.mul_one _).symm
  · exact Nat.zero_le _

/-! ## Quiet runs -/

/-- The tickets that are taken out of the queue, in order. -/
def takings : List Deed → Custody τ → List Ticket
  | [], _ => []
  | d :: rest, n => d.taken n ++ takings rest (d.run n)

/-- The cycles that the worker runs, in order. -/
def tries : List Deed → Custody τ → List (Ticket × Pipeline τ)
  | [], _ => []
  | d :: rest, n => d.tried n ++ tries rest (d.run n)

variable {later : List Deed}

/-- Every ticket that is taken was due to be taken, and every cycle that is run is one of those of
a ticket that was due to be run. -/
theorem counts_runAll (hlater : ∀ d ∈ later, d.Quiet) (hn : n.tally.InTurn) :
    (takings later n).length + (runAll later n).due.countP isTake ≤ n.due.countP isTake ∧
      (tries later n).length + (n.pipeline.config.prepareRetries.toNat + 1) *
          (runAll later n).due.countP isWork ≤
        (n.pipeline.config.prepareRetries.toNat + 1) * n.due.countP isWork := by
  -- By induction on the deeds: what is done of what is due is no longer due.
  induction later generalizing n with
  | nil => simp [takings, tries, runAll]
  | cons d rest ih =>
    obtain ⟨hd, hrest⟩ := List.forall_mem_cons.mp hlater
    obtain ⟨hsame, hproceeds⟩ := proceeds_run hd hn
    obtain ⟨htakings, htries⟩ := ih hrest ((leaves_run d n).inTurn (.inl hd) hn)
    rw [hsame.config] at htries
    have hrun : runAll (d :: rest) n = runAll rest (d.run n) := rfl
    rw [takings, tries, hrun, List.length_append, List.length_append]
    rcases hproceeds.due_cases hsame with ⟨heq, htaken, htried, -⟩ | ⟨left, heq, hleft, -⟩
    · rw [heq] at htakings htries
      simpa [htaken, htried] using ⟨htakings, htries⟩
    · have htaken := length_taken_le d n
      have htried := length_tried_le d n
      have htakes := hleft.countP_le (p := isTake)
      have hworks := Nat.mul_le_mul_left (n.pipeline.config.prepareRetries.toNat + 1)
        (hleft.countP_le (p := isWork))
      rw [heq, ← List.singleton_append, List.countP_append, List.countP_append, Nat.mul_add]
      constructor <;> omega

/-- What was queued at the start is taken first, and what comes after is for the highest reported
round. -/
theorem takings_append_queue (hlater : ∀ d ∈ later, d.Quiet) (hn : n.tally.InTurn) :
    ∃ followUps,
      takings later n ++ (runAll later n).pipeline.queue = n.pipeline.queue ++ followUps ∧
        ∀ k ∈ followUps, k.committed = n.pipeline.reported := by
  induction later generalizing n with
  | nil => exact ⟨[], by simp [takings, runAll], by simp⟩
  | cons d rest ih =>
    obtain ⟨hd, hrest⟩ := List.forall_mem_cons.mp hlater
    obtain ⟨hsame, hproceeds⟩ := proceeds_run hd hn
    obtain ⟨first, hfirst, hfor⟩ := hproceeds.taken_append_queue
    obtain ⟨others, hothers, hfor'⟩ := ih hrest ((leaves_run d n).inTurn (.inl hd) hn)
    refine ⟨first ++ others, ?_, fun k hk => ?_⟩
    · rw [← List.append_assoc, ← hfirst, takings, List.append_assoc, List.append_assoc, ← hothers]
      rfl
    · rcases List.mem_append.mp hk with hk | hk
      · exact hfor k hk
      · exact (hfor' k hk).trans hsame.reported

/-- Once the worker has come to every call that was due, nothing is due any more. -/
theorem due_runAll_eq_nil (hlater : ∀ d ∈ later, d.Quiet) (hn : n.tally.InTurn)
    (hworking : n.pipeline.intake = .working ∨ n.due = []) (hdue : n.due.Sublist later) :
    (runAll later n).due = [] := by
  -- By induction on the deeds: each either waits, or is the call that is due next.
  induction later generalizing n with
  | nil => exact List.sublist_nil.mp hdue
  | cons d rest ih =>
    obtain ⟨hd, hrest⟩ := List.forall_mem_cons.mp hlater
    obtain ⟨hsame, hproceeds⟩ := proceeds_run hd hn
    refine ih hrest ((leaves_run d n).inTurn (.inl hd) hn) ?_ ?_
    · rcases hproceeds.due_cases hsame with ⟨heq, -, -, hstill⟩ | ⟨left, heq, hleft, hstill⟩
      · rw [heq]
        exact hworking.imp_left fun hworking => (hstill hworking).1
      · rcases hworking with hworking | hnone
        · exact hstill hworking
        · cases heq.symm.trans hnone
    · rcases hproceeds.due_cases hsame with ⟨heq, -, -, hstill⟩ | ⟨left, heq, hleft, -⟩
      · rw [heq]
        rcases List.sublist_cons_iff.mp hdue with hlater | ⟨left, hnext, -⟩
        · exact hlater
        · rcases hworking with hworking | hnone
          · exact absurd hnext ((hstill hworking).2 left)
          · cases hnext.symm.trans hnone
      · rw [heq] at hdue
        exact hleft.trans (List.cons_sublist_cons.mp hdue)

/-! ## Runs with reports -/

/-- A report is cut short, of a caller or of the worker that follows a cycle up. -/
inductive Derails : Deed → Custody τ → Prop
  | report {n : Custody τ} {round : Round} (hcut : n.pipeline.Derails round) :
      Derails (.report round) n
  | complete {n : Custody τ} {committed : Round} (hran : n.hand = .ran committed)
      (hcut : (n.pipeline.clearMark.log (.followUp committed n.pipeline.reported)).Derails
        n.pipeline.reported) : Derails .complete n

/-- Among ordinary deeds only a report can strand the mark, by being cut short. -/
theorem Strands.derails (h : d.Strands n) (hd : d.Ordinary) : d.Derails n := by
  cases h with
  | report hfree hcut => exact .report (Pipeline.derails_of_report hcut)
  | @complete _ committed f hran hcut =>
    refine .complete hran (Pipeline.derails_of_report (f := f) ?_)
    obtain ⟨-, heq⟩ | ⟨-, result, q, hreport, heq⟩ :=
      Pipeline.complete_cases committed n.pipeline <;> rw [heq] at hcut
    · cases hcut
    · cases result with
      | error f' =>
        cases hcut
        exact congrArg Prod.fst hreport
      | ok floor => cases hcut
  | schedule | commitHeld | retire => rcases hd with hquiet | ⟨round, heq⟩ <;> trivial

/-- Ordinary deeds give tickets to nobody but the worker. -/
theorem held_run (hd : d.Ordinary) : (d.run n).held = n.held := by
  rcases hd with hquiet | ⟨round, rfl⟩
  · cases d with
    | load | newBlock | close | startWorker => rfl
    | take | work | complete =>
      rw [run]
      split <;> first | rfl | (split <;> rfl)
    | report | schedule | commitHeld | commitOther | retire => exact hquiet.elim
  · rfl

theorem config_run (hd : d.Ordinary) (hn : n.tally.InTurn) :
    (d.run n).pipeline.config = n.pipeline.config := by
  rcases hd with hquiet | ⟨round, rfl⟩
  · exact (proceeds_run hquiet hn).1.config
  · exact (Pipeline.sameBase_report (p := n.pipeline) round).config

/-- Over an ordinary run settings stay, and callers hold what they held. -/
theorem frame_runAll {deeds : List Deed} (hdeeds : ∀ d ∈ deeds, d.Ordinary)
    (hn : n.tally.InTurn) :
    (runAll deeds n).held = n.held ∧ (runAll deeds n).pipeline.config = n.pipeline.config := by
  induction deeds generalizing n with
  | nil => exact ⟨rfl, rfl⟩
  | cons d rest ih =>
    obtain ⟨hd, hrest⟩ := List.forall_mem_cons.mp hdeeds
    obtain ⟨hheld, hconfig⟩ := ih hrest ((leaves_run d n).inTurn hd hn)
    exact ⟨hheld.trans (held_run hd), hconfig.trans (config_run hd hn)⟩

end Deed

namespace Custody

variable {τ : Type} {n : Custody τ}

/-- A turn that comes again is one turn at most. -/
theorem again_sublist (n : Custody τ) (committed : Round) :
    (n.again committed).Sublist Deed.turn := by
  unfold again
  split
  · exact .refl _
  · exact List.nil_sublist _

/-- At most two turns are due. -/
theorem due_sublist (n : Custody τ) : n.due.Sublist (Deed.turn ++ Deed.turn) := by
  unfold due
  split
  · exact .cons _ (((n.again_sublist _).cons_cons _).cons_cons _)
  · exact .cons _ (.cons _ ((n.again_sublist _).cons_cons _))
  · exact (((n.again_sublist _).cons_cons _).cons_cons _).cons_cons _
  · exact List.nil_sublist _

/-- Besides the tickets in the queue at most one is due to be taken. -/
theorem countP_isTake_due (hn : n.tally.InTurn) :
    n.pipeline.queue.length ≤ n.due.countP Deed.isTake ∧
      n.due.countP Deed.isTake ≤ n.pipeline.queue.length + 1 := by
  have hagain : ∀ committed, (n.again committed).countP Deed.isTake ≤ 1 :=
    fun committed => (n.again_sublist committed).countP_le
  rcases hn.single with hempty | ⟨k, hqueue, hfree⟩
  · have hnone : n.pipeline.queue = [] := hempty
    cases hhand : n.hand with
    | free => simp [due_eq_nil_iff.mpr ⟨hhand, hnone⟩, hnone]
    | holding k => simpa [due_of_holding hhand, hnone, Deed.isTake] using hagain k.committed
    | ran committed => simpa [due_of_ran hhand, hnone, Deed.isTake] using hagain committed
  · have hone : n.pipeline.queue = [k] := hqueue
    simpa [due_of_queue hfree hone, hone, List.countP_cons, Deed.isTake] using hagain k.committed

end Custody

/-- A pipeline with a tracker that objects to every range. -/
def stubborn : Pipeline (Member Scripted) :=
  { trackers := [.guest ⟨"stubborn", { failPrepare := true }⟩], config := {}, store := .empty }

/-- A round is reported, and another one while the ticket for the first is in the queue. -/
def stubbornDeeds : List Deed := [.load emptyLedger, .startWorker, .report ⟨4⟩, .report ⟨5⟩]

/-- A pipeline with a tracker that leaves a range without an end. -/
def endless : Pipeline (Member Scripted) :=
  { trackers := [.guest ⟨"endless", { base := some ⟨1⟩, length := some 18446744073709551615 }⟩]
    config := {}
    store := .empty }

def endlessDeeds : List Deed := [.load emptyLedger, .startWorker, .report ⟨5⟩]

end CommitPipeline
