import CommitPipeline.Proofs.Loading
import CommitPipeline.Proofs.Operation

/-!
# What operations leave alone

Most of what is done to a pipeline consists of questions to its trackers, and a question changes
nothing but the trackers and what they act on. The lemmas of this module hold for trackers of any
sort, whatever these do, so the proofs about store, durable round and queue need not look at
trackers at all.

The module introduces:

* `Pipeline.Asked` — only trackers and what they act on may differ;
* `Pipeline.Failed` — the answers of a cycle that came to its end without landing;
* `Pipeline.CycleEnd` — what a cycle may leave, with one lemma for each way to run one;
* `Pipeline.SameBase` — settings, store and durable round are what they were, which holds of
  negotiations, of the queue and of the bookkeeping of the worker.
-/

namespace CommitPipeline.Pipeline

variable {τ : Type} {p q r : Pipeline τ}

/-- From `p` to `q` trackers were asked: they and what they act on may differ, and nothing else. -/
def Asked (p q : Pipeline τ) : Prop := ∃ trackers effects, q = { p with trackers, effects }

namespace Asked

@[refl]
theorem refl (p : Pipeline τ) : p.Asked p := ⟨_, _, rfl⟩

/-- Questions in a row are questions. -/
theorem trans (h : p.Asked q) (h' : q.Asked r) : p.Asked r := by
  obtain ⟨_, _, rfl⟩ := h
  obtain ⟨_, _, rfl⟩ := h'
  exact ⟨_, _, rfl⟩

end Asked

/-- A line in the log counts as what trackers act on. -/
theorem asked_log (e : Event) : p.Asked (p.log e) := ⟨_, _, rfl⟩

/-- A question to all trackers, whatever it is. -/
theorem asked_ask {ε : Type} (a : Act ε (τ × Effects) Unit) : p.Asked (p.ask a).2 := ⟨_, _, rfl⟩

/-- From `p` to `q` settings, store and durable round are what they were. -/
structure SameBase (p q : Pipeline τ) : Prop where
  config : q.config = p.config
  store : q.store = p.store
  durable : q.durable = p.durable
  loaded : q.loaded = p.loaded
  flushed : q.flushed = p.flushed

namespace SameBase

/-- Steps that keep settings, store and durable round do so in a row. -/
theorem trans (h : p.SameBase q) (h' : q.SameBase r) : p.SameBase r where
  config := h'.config.trans h.config
  store := h'.store.trans h.store
  durable := h'.durable.trans h.durable
  loaded := h'.loaded.trans h.loaded
  flushed := h'.flushed.trans h.flushed

end SameBase

/-- A question touches none of the three. -/
theorem Asked.sameBase (h : p.Asked q) : p.SameBase q := by
  obtain ⟨_, _, rfl⟩ := h
  exact ⟨rfl, rfl, rfl, rfl, rfl⟩

/-- The mark is apart from them. -/
theorem sameBase_clearMark : p.SameBase p.clearMark := ⟨rfl, rfl, rfl, rfl, rfl⟩

/-- So is the queue. -/
theorem sameBase_dropIntake : p.SameBase p.dropIntake := ⟨rfl, rfl, rfl, rfl, rfl⟩

/-- A worker that starts finds them as they were. -/
theorem sameBase_startWorker (h : p.startWorker = .ok q) : p.SameBase q := by
  unfold startWorker at h
  split at h <;> cases h
  exact ⟨rfl, rfl, rfl, rfl, rfl⟩

/-- Taking a ticket changes the queue only. -/
theorem sameBase_takeTicket {k : Ticket} (h : p.takeTicket = some (k, q)) : p.SameBase q := by
  unfold takeTicket at h
  split at h <;> cases h
  exact ⟨rfl, rfl, rfl, rfl, rfl⟩

/-- A ticket goes into the queue or is refused; neither changes them. -/
theorem sameBase_dispatch (k : Ticket) : p.SameBase (p.dispatch k) := by
  unfold dispatch enqueue
  -- The queue is closed, or it has room, or it is full; only the second case puts the ticket in.
  split
  · next h =>
    split at h
    · cases h
    all_goals
      split at h <;> cases h
      exact ⟨rfl, rfl, rfl, rfl, rfl⟩
  · exact ⟨rfl, rfl, rfl, rfl, rfl⟩

variable [Tracker τ]

/-- Telling trackers how a cycle goes on is a question without an answer. -/
theorem asked_tell (n : Notice) (k : Ticket) : p.Asked (p.tell n k).2 := asked_ask _

/-- A block changes trackers only. -/
theorem asked_newBlock (block : Block) (delta : Delta) : p.Asked (p.newBlock block delta).2 :=
  asked_ask _

/-- Closing is a question, with a line of the log behind it. -/
theorem asked_close (p : Pipeline τ) : p.Asked p.close.2 := by
  rcases close_cases p with heq | heq <;> rw [heq]
  · exact asked_ask _
  · exact (asked_ask _).trans (asked_log _)

/-- The needs that are found are an answer, not a change. -/
theorem asked_needAll (committed : Round) : p.Asked (p.needAll committed).2 := ⟨_, _, rfl⟩

/-- So is the range that is agreed on. -/
theorem asked_refineAll (committed : Round) (range : CommitRange) :
    p.Asked (p.refineAll committed range).2 := ⟨_, _, rfl⟩

/-- So is the ticket that the preparation hands on. -/
theorem asked_prepareAll (k : Ticket) : p.Asked (p.prepareAll k).2.2 := ⟨_, _, rfl⟩

/-! ## Cycles -/

/-- The answer of a cycle that came to its end without landing: it was skipped, or it failed. -/
inductive Failed : Except Stop Outcome → Prop
  | skipped : Failed (.ok .outOfOrder)
  | error (e : PipelineError) : Failed (.error (.error e))

/-- What a cycle of `p` may leave, given its answer: only trackers were asked, or the store took
over a transaction and the pipeline is at the round that was written with it. -/
inductive CycleEnd (p : Pipeline τ) : Except Stop Outcome → Pipeline τ → Prop
  | fruitless {result : Except Stop Outcome} {q : Pipeline τ}
      (hresult : ∀ newBase, result ≠ .ok (.landed newBase)) (hasked : p.Asked q) :
      CycleEnd p result q
  | written {result : Except Stop Outcome} {q : Pipeline τ} (store : Store) (newBase : Round)
      (hstored : store.round = newBase)
      (hresult : result = .ok (.landed newBase) ∨ ∃ f, result = .error (.fault f))
      (hasked : ({ p with store, durable := newBase, flushed := true } : Pipeline τ).Asked q) :
      CycleEnd p result q

namespace CycleEnd

omit [Tracker τ]

variable {result : Except Stop Outcome}

/-- What a cycle leaves that began after trackers were asked. -/
theorem of_asked (h : p.Asked q) (hend : q.CycleEnd result r) : p.CycleEnd result r := by
  obtain ⟨_, _, rfl⟩ := h
  cases hend with
  | fruitless hresult hasked =>
    exact .fruitless hresult (Asked.trans ⟨_, _, rfl⟩ hasked)
  | written store newBase hstored hresult hasked =>
    exact .written store newBase hstored hresult (Asked.trans ⟨_, _, rfl⟩ hasked)

/-- Only a cycle that is cut short or lands has written a transaction. -/
theorem asked_of_failed (h : p.CycleEnd result q) (hfailed : Failed result) : p.Asked q := by
  cases h with
  | fruitless _ hasked => exact hasked
  | written store newBase hstored hresult hasked =>
    cases hfailed <;> rcases hresult with heq | ⟨f, heq⟩ <;> cases heq

end CycleEnd

/-- A cycle that fails tells its trackers and leaves the rest as it was. -/
theorem cycleEnd_failWith (n : Notice) (e : PipelineError) (k : Ticket) :
    p.CycleEnd (p.failWith n e k).1 (p.failWith n e k).2.2 := by
  have hasked := asked_tell (p := p) n k
  unfold failWith
  rcases h : p.tell n k with ⟨f | _, q⟩ <;> rw [h] at hasked
  · exact .fruitless (by simp) hasked
  · exact .fruitless (by simp) hasked

/-- A cycle that is skipped tells its trackers and leaves the rest as it was. -/
theorem cycleEnd_skipPhase (k : Ticket) :
    p.CycleEnd (p.skipPhase k).1 (p.skipPhase k).2.2 := by
  have hasked := (asked_log (p := p) (.outOfOrder p.durable)).trans (asked_tell .outOfOrder k)
  unfold skipPhase
  rcases h : (p.log (.outOfOrder p.durable)).tell .outOfOrder k with ⟨f | _, q⟩ <;>
    rw [h] at hasked
  · exact .fruitless (by simp) hasked
  · exact .fruitless (by simp) hasked

/-- A transaction is written with its new durable round, or the store is what it was. -/
theorem transaction_frame (newBase : Round) (k : Ticket) (p : Pipeline τ) :
    ∃ store, ({ p with store } : Pipeline τ).Asked (p.transaction newBase k).2.2 ∧
      ((p.transaction newBase k).1 = .ok () → store.round = newBase) ∧
      ((p.transaction newBase k).1 ≠ .ok () → store = p.store) := by
  unfold transaction Store.transact writeAll
  rcases sweep Tracker.write p.trackers (p.effects, k, p.store) with
    ⟨stop | _, trackers, effects, k', working⟩
  · exact ⟨p.store, ⟨_, _, rfl⟩, by simp, fun _ => rfl⟩
  · exact ⟨working.setRound newBase, ⟨_, _, rfl⟩, fun _ => rfl, by simp⟩

/-- Behind the transaction, durable round and flush mark are set at once; all that follows are
questions. -/
theorem asked_settleLanded (newBase : Round) (k : Ticket) :
    ({ q with durable := newBase, flushed := true } : Pipeline τ).Asked
      (q.settleLanded newBase k).2.2 := by
  obtain ⟨p₁, rfl, ⟨f, -, heq⟩ | ⟨-, p₂, rfl, ⟨f, -, heq⟩ | ⟨-, heq⟩⟩⟩ :=
    settleLanded_cases (q := q) newBase k <;> rw [heq]
  · exact asked_tell _ _
  · exact (asked_tell _ _).trans (asked_tell _ _)
  · exact ((asked_tell _ _).trans (asked_tell _ _)).trans (asked_log _)

/-- What the second half of a cycle may leave, from the transaction on. -/
theorem cycleEnd_writePhase (k : Ticket) :
    p.CycleEnd (p.writePhase k).1 (p.writePhase k).2.2 := by
  unfold writePhase
  cases k.newBase with
  | error f => exact .fruitless (by simp) (.refl p)
  | ok newBase =>
    simp only
    obtain ⟨store, hasked, hstored, hsame⟩ := transaction_frame newBase k p
    rcases h : p.transaction newBase k with ⟨(e | f) | _, k', q⟩ <;>
      rw [h] at hasked hstored hsame
    -- Of the three ways in which a transaction ends only the last one touches the store.
    · rw [hsame (by simp)] at hasked
      exact .of_asked (hasked.trans (asked_log _)) (cycleEnd_failWith .writeFailed e k')
    · rw [hsame (by simp)] at hasked
      exact .fruitless (by simp) hasked
    · have hsettle := asked_settleLanded (q := q) newBase k'
      obtain ⟨_, _, rfl⟩ := hasked
      exact .written store newBase (hstored rfl) (settleLanded_result newBase k').2
        (Asked.trans ⟨_, _, rfl⟩ hsettle)

/-- What a whole cycle may leave. -/
theorem cycleEnd_runCycle (k : Ticket) (p : Pipeline τ) :
    p.CycleEnd (p.runCycle k).1 (p.runCycle k).2.2 := by
  have hlog := asked_log (p := p) (.cycleEntered k.range.base k.range.length)
  unfold runCycle
  simp only
  split
  · exact .fruitless (by simp) hlog
  split
  · exact .of_asked hlog (cycleEnd_skipPhase k)
  refine .of_asked hlog ?_
  have hprepare := asked_prepareAll (p := p.log (.cycleEntered k.range.base k.range.length)) k
  unfold preparePhase
  rcases h : (p.log (.cycleEntered k.range.base k.range.length)).prepareAll k with
    ⟨(e | f) | _, k', q⟩ <;> rw [h] at hprepare
  · exact .of_asked (hprepare.trans (asked_log _)) (cycleEnd_failWith .prepareFailed e k')
  · exact .fruitless (by simp) hprepare
  · exact .of_asked hprepare (cycleEnd_writePhase k')

/-- The holder of a ticket gives the mark back after the cycle, and nothing else. -/
theorem commit_eq (k : Ticket) (p : Pipeline τ) :
    (p.commit k).1 = (p.runCycle k).1 ∧ (p.commit k).2.1 = (p.runCycle k).2.1 ∧
      ((p.commit k).2.2 = (p.runCycle k).2.2 ∧ (∃ f, (p.runCycle k).1 = .error (.fault f)) ∨
        (p.commit k).2.2 = (p.runCycle k).2.2.clearMark) := by
  unfold commit
  rcases p.runCycle k with ⟨(e | f) | o, k', q⟩
  · exact ⟨rfl, rfl, .inr rfl⟩
  · exact ⟨rfl, rfl, .inl ⟨rfl, f, rfl⟩⟩
  · exact ⟨rfl, rfl, .inr rfl⟩

/-- What retries may leave: all but the last of them failed, and a failed cycle leaves questions
only. -/
theorem cycleEnd_retryHalving (retries attempt : Nat) (k : Ticket) (p : Pipeline τ) :
    p.CycleEnd (p.retryHalving retries attempt k).1 (p.retryHalving retries attempt k).2.2 := by
  -- By induction on the tries that are left: one that is followed by another only asked.
  induction retries generalizing attempt k p with
  | zero => exact cycleEnd_runCycle k p
  | succ retries ih =>
    have hcycle := cycleEnd_runCycle k p
    unfold retryHalving
    split
    · next tracker objection k' q heq =>
      rw [heq] at hcycle
      split
      · have hasked := hcycle.asked_of_failed (.error _)
        exact .of_asked (hasked.trans (asked_log _)) (ih _ _ _)
      · exact hcycle
    · exact hcycle

/-- What the worker may leave of a ticket. -/
theorem cycleEnd_runWithRetries (k : Ticket) (p : Pipeline τ) :
    p.CycleEnd (p.runWithRetries k).1 (p.runWithRetries k).2.2 := cycleEnd_retryHalving _ 0 k p

/-! ## Negotiations and the worker -/

/-- What trackers agreed on is a ticket under the mark, which was free before. -/
theorem negotiate_eq_some {committed : Round} {lookback : UInt64} {k : Ticket}
    (h : p.negotiate committed lookback = (.ok (some k), q)) : p.Asked q := by
  have hrefine := asked_refineAll (p := p) committed (p.propose committed lookback)
  unfold negotiate at h
  simp only at h
  split at h
  · cases h
  rcases hasked : p.refineAll committed (p.propose committed lookback) with
    ⟨(tracker | f) | range, p'⟩ <;> rw [hasked] at h hrefine
  · cases h
  · cases h
  unfold conclude at h
  simp only at h
  split at h
  · cases h
  split at h
  · cases h
  · cases h
    exact hrefine.trans (asked_log _)

/-- A caller who gets a ticket found the mark free and left it set. -/
theorem schedule_eq_some {committed : Round} {lookback : UInt64} {k : Ticket}
    (h : p.schedule committed lookback = (.ok (some k), q)) :
    p.inFlight = false ∧ ({ p with inFlight := true } : Pipeline τ).Asked q := by
  unfold schedule claimMark at h
  by_cases hmark : p.inFlight
  · rw [if_pos hmark] at h
    cases h
  · rw [if_neg hmark] at h
    exact ⟨Bool.not_eq_true _ ▸ hmark, negotiate_eq_some h⟩

/-- A negotiation may change the mark besides. -/
theorem negotiate_frame (committed : Round) (lookback : UInt64) :
    ∃ inFlight, ({ p with inFlight } : Pipeline τ).Asked (p.negotiate committed lookback).2 := by
  have hrefine := asked_refineAll (p := p) committed (p.propose committed lookback)
  unfold negotiate
  simp only
  split
  · exact ⟨false, .refl _⟩
  rcases h : p.refineAll committed (p.propose committed lookback) with
    ⟨(tracker | f) | range, q⟩ <;> rw [h] at hrefine <;> obtain ⟨_, _, rfl⟩ := hrefine
  · exact ⟨false, _, _, rfl⟩
  · exact ⟨p.inFlight, _, _, rfl⟩
  · unfold conclude
    simp only
    split
    · exact ⟨false, _, _, rfl⟩
    · split <;> exact ⟨p.inFlight, _, _, rfl⟩

/-- A caller's negotiation changes the mark at most, a fault in it included. -/
theorem schedule_frame (committed : Round) (lookback : UInt64) :
    ∃ inFlight, ({ p with inFlight } : Pipeline τ).Asked (p.schedule committed lookback).2 := by
  unfold schedule claimMark
  split
  · next h => exact ⟨p.inFlight, asked_log _⟩
  · next q h =>
    split at h <;> cases h
    exact negotiate_frame (p := { p with inFlight := true }) committed lookback

/-- Nothing is written by a negotiation that a caller asks for. -/
theorem sameBase_schedule (committed : Round) (lookback : UInt64) :
    p.SameBase (p.schedule committed lookback).2 := by
  obtain ⟨inFlight, hasked⟩ := schedule_frame (p := p) committed lookback
  have hmark : p.SameBase { p with inFlight } := ⟨rfl, rfl, rfl, rfl, rfl⟩
  exact hmark.trans hasked.sameBase

/-- Nothing is written by a report. -/
theorem sameBase_report (round : Round) : p.SameBase (p.report round).2 := by
  have hremember : p.SameBase (p.remember round) := ⟨rfl, rfl, rfl, rfl, rfl⟩
  exact report_preserves (I := fun q => p.SameBase q)
    (hremember.trans (asked_needAll round).sameBase)
    (fun _ lookback h => h.trans (sameBase_schedule round lookback))
    fun _ k h => h.trans (sameBase_dispatch k)

/-- Nothing is written when the worker looks for more to do. -/
theorem sameBase_complete (handled : Round) : p.SameBase (p.complete handled).2 := by
  obtain ⟨-, heq⟩ | ⟨-, result, q, hreport, heq⟩ := complete_cases handled p <;> rw [heq]
  · exact sameBase_clearMark
  · have hsame : p.SameBase
        ((p.clearMark.log (.followUp handled p.reported)).report p.reported).2 :=
      (sameBase_clearMark.trans (asked_log _).sameBase).trans (sameBase_report _)
    rw [hreport] at hsame
    exact hsame

end CommitPipeline.Pipeline
