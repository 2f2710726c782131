import CommitPipeline.Proofs.CatchingUp

/-!
# Who has a ticket, and who has the mark

The mark of a cycle in flight is set in one place and taken away in many: by the negotiation that
set it, by a full or closed queue, by whoever runs a cycle, and by the worker once it is done with
one. It does not say which cycle it was set for. This module follows both: the mark, and every
ticket from the negotiation that gave it until its cycle is run.

The module introduces:

* `Pipeline.SameMark` — mark and queue are what they were, which holds of cycles and loads;
* `Pipeline.Scheduled`, `Pipeline.Reported` — how negotiations end, with mark and queue;
* `Custody` — a pipeline with its worker, the callers who hold tickets, and the tickets that went
  down with the queue; `Tally` — all of it that has to do with mark and tickets;
* `Deed` — what callers and the worker may do, one call at a time, and `Deed.runAll`;
* `Deed.Strands` — the deeds after which nobody may be left to take the mark away;
* `Deed.Leaves` — all that a deed may do to mark and tickets.
-/

namespace CommitPipeline

namespace Pipeline

variable {τ : Type} {p q r : Pipeline τ}

/-! ## The mark and the queue -/

/-- From `p` to `q` the mark and the queue are what they were. -/
structure SameMark (p q : Pipeline τ) : Prop where
  inFlight : q.inFlight = p.inFlight
  queue : q.queue = p.queue
  intake : q.intake = p.intake

namespace SameMark

@[refl]
theorem refl (p : Pipeline τ) : p.SameMark p := ⟨rfl, rfl, rfl⟩

/-- What keeps mark and queue twice keeps them. -/
theorem trans (h : p.SameMark q) (h' : q.SameMark r) : p.SameMark r where
  inFlight := h'.inFlight.trans h.inFlight
  queue := h'.queue.trans h.queue
  intake := h'.intake.trans h.intake

theorem clearMark (h : p.SameMark q) : p.clearMark.SameMark q.clearMark := ⟨rfl, h.queue, h.intake⟩

theorem setMark (h : p.SameMark q) :
    ({ p with inFlight := true } : Pipeline τ).SameMark { q with inFlight := true } :=
  ⟨rfl, h.queue, h.intake⟩

end SameMark

/-- A question to trackers touches neither mark nor queue. -/
theorem Asked.sameMark (h : p.Asked q) : p.SameMark q := by
  obtain ⟨_, _, rfl⟩ := h
  exact ⟨rfl, rfl, rfl⟩

/-- A cycle leaves the mark to those who run it. -/
theorem CycleEnd.sameMark {result : Except Stop Outcome} (h : p.CycleEnd result q) :
    p.SameMark q := by
  cases h with
  | fruitless _ hasked => exact hasked.sameMark
  | written store newBase _ _ hasked =>
    have hwritten : p.SameMark { p with store, durable := newBase, flushed := true } :=
      ⟨rfl, rfl, rfl⟩
    exact hwritten.trans hasked.sameMark

/-- The worker has a queue to take from, and takes what came first. -/
theorem takeTicket_eq_some {k : Ticket} (h : p.takeTicket = some (k, q)) :
    p.intake = .working ∧ ∃ rest, p.queue = k :: rest ∧ q = { p with queue := rest } := by
  unfold takeTicket at h
  split at h
  · next hintake hqueue =>
    cases h
    exact ⟨hintake, _, hqueue, rfl⟩
  · cases h

/-- A ticket is queued where somebody may still take it, or the mark is given back. -/
theorem dispatch_cases (k : Ticket) (p : Pipeline τ) :
    (p.intake ≠ .gone ∧ ({ p with queue := p.queue ++ [k] } : Pipeline τ).SameMark (p.dispatch k)) ∨
      p.clearMark.SameMark (p.dispatch k) := by
  unfold dispatch enqueue
  cases hintake : p.intake with
  | gone => exact .inr ⟨rfl, rfl, rfl⟩
  | unclaimed | working =>
    by_cases hroom : p.queue.length < p.config.queueCapacity.toNat
    · simp only [if_pos hroom]
      exact .inl ⟨nofun, rfl, rfl, rfl⟩
    · simp only [if_neg hroom]
      exact .inr ⟨rfl, rfl, rfl⟩

variable [Tracker τ]

/-- A worker that starts takes the queue over as it is. -/
theorem run_startWorker (p : Pipeline τ) :
    Request.startWorker.run p = p ∨
      p.intake = .unclaimed ∧ Request.startWorker.run p = { p with intake := .working } := by
  rw [Request.run, startWorker]
  cases hintake : p.intake with
  | unclaimed => exact .inr ⟨rfl, rfl⟩
  | working | gone => exact .inl rfl

/-- A load touches neither. -/
theorem sameMark_load (ledger : LedgerView) (p : Pipeline τ) : p.SameMark (p.load ledger).2 := by
  refine load_preserves (I := fun q => p.SameMark q) (.refl p) (asked_ask _).sameMark ?_ ?_ ?_
  · exact fun q r h => h.trans (asked_log _).sameMark
  · exact fun q block delta h => h.trans (asked_newBlock block delta).sameMark
  · exact fun q replayed h => h.trans ⟨rfl, rfl, rfl⟩

/-- Whoever runs a cycle takes the mark away, unless the cycle is cut short. -/
theorem commit_cases (k : Ticket) (p : Pipeline τ) :
    ((∃ f, (p.commit k).1 = .error (.fault f)) ∧ p.SameMark (p.commit k).2.2) ∨
      ((∀ f, (p.commit k).1 ≠ .error (.fault f)) ∧ p.clearMark.SameMark (p.commit k).2.2) := by
  have hcycle := (cycleEnd_runCycle k p).sameMark
  unfold commit
  rcases h : p.runCycle k with ⟨(e | f) | o, k', q⟩ <;> rw [h] at hcycle
  · exact .inr ⟨by simp, hcycle.clearMark⟩
  · exact .inl ⟨⟨f, rfl⟩, hcycle⟩
  · exact .inr ⟨by simp, hcycle.clearMark⟩

/-- Nor do the cycles that the worker runs. -/
theorem sameMark_work (k : Ticket) (p : Pipeline τ) : p.SameMark ((Request.work k).run p) :=
  (cycleEnd_runWithRetries k p).sameMark.trans (asked_log _).sameMark

/-! ## Negotiations -/

/-- How a negotiation ends. It gives no ticket and the mark is what it was; or the mark, which was
free, is set for the ticket it gives; or it is cut short, and the mark is set for nothing. -/
inductive Scheduled (p : Pipeline τ) : Except Fault (Option Ticket) × Pipeline τ → Prop
  | nothing {q : Pipeline τ} (hsame : p.SameMark q) : Scheduled p (.ok none, q)
  | ticket {k : Ticket} {q : Pipeline τ} (hfree : p.inFlight = false)
      (hmarked : ({ p with inFlight := true } : Pipeline τ).SameMark q) :
      Scheduled p (.ok (some k), q)
  | cutShort {f : Fault} {q : Pipeline τ} (hfree : p.inFlight = false)
      (hmarked : ({ p with inFlight := true } : Pipeline τ).SameMark q) :
      Scheduled p (.error f, q)

/-- Every negotiation ends in one of these ways. -/
theorem scheduled_schedule (committed : Round) (lookback : UInt64) (p : Pipeline τ) :
    p.Scheduled (p.schedule committed lookback) := by
  unfold schedule claimMark
  by_cases hmark : p.inFlight
  · rw [if_pos hmark]
    exact .nothing (asked_log _).sameMark
  rw [if_neg hmark]
  have hfree : p.inFlight = false := Bool.not_eq_true _ ▸ hmark
  -- Whoever gives the mark back leaves it as it was before the negotiation.
  have hback : ∀ {q : Pipeline τ}, ({ p with inFlight := true } : Pipeline τ).SameMark q →
      p.SameMark q.clearMark := fun h => ⟨hfree.symm, h.queue, h.intake⟩
  have hrefine := (asked_refineAll (p := { p with inFlight := true }) committed
    (({ p with inFlight := true } : Pipeline τ).propose committed lookback)).sameMark
  simp only [negotiate]
  split
  · exact .nothing (hback (.refl _))
  rcases h : ({ p with inFlight := true } : Pipeline τ).refineAll committed
    (({ p with inFlight := true } : Pipeline τ).propose committed lookback) with
    ⟨(tracker | f) | range, q⟩ <;> rw [h] at hrefine
  · exact .nothing (hback (hrefine.trans (asked_log _).sameMark))
  · exact .cutShort hfree hrefine
  simp only [conclude]
  split
  · exact .nothing (hback hrefine)
  · split
    · exact .cutShort hfree hrefine
    · exact .ticket hfree (hrefine.trans (asked_log _).sameMark)

/-- How a report ends. It leaves mark and queue alone; or the mark, which was free, is set for a
ticket in a queue that somebody may still take from; or it is cut short, and the mark is set for
nothing. -/
inductive Reported (p : Pipeline τ) : Except Fault Round × Pipeline τ → Prop
  | nothing {result : Except Fault Round} {q : Pipeline τ} (hsame : p.SameMark q) :
      Reported p (result, q)
  | queued {floor : Round} {k : Ticket} {q : Pipeline τ} (hfree : p.inFlight = false)
      (hopen : p.intake ≠ .gone)
      (hmarked : ({ p with inFlight := true, queue := p.queue ++ [k] } : Pipeline τ).SameMark q) :
      Reported p (.ok floor, q)
  | cutShort {f : Fault} {q : Pipeline τ} (hfree : p.inFlight = false)
      (hmarked : ({ p with inFlight := true } : Pipeline τ).SameMark q) :
      Reported p (.error f, q)

omit [Tracker τ] in
/-- How a report ends is the same for a pipeline with the same mark and queue. -/
theorem Reported.of_sameMark (h : p.SameMark q) {left : Except Fault Round × Pipeline τ}
    (hreport : q.Reported left) : p.Reported left := by
  cases hreport with
  | nothing hsame => exact .nothing (h.trans hsame)
  -- What was queued came after what was in the queue already.
  | queued hfree hopen hmarked =>
    exact .queued (h.inFlight.symm.trans hfree) (h.intake ▸ hopen)
      ⟨hmarked.inFlight, hmarked.queue.trans (congrArg (· ++ _) h.queue),
        hmarked.intake.trans h.intake⟩
  | cutShort hfree hmarked =>
    exact .cutShort (h.inFlight.symm.trans hfree) (h.setMark.trans hmarked)

/-- Every report ends in one of these ways. -/
theorem reported_report (round : Round) (p : Pipeline τ) : p.Reported (p.report round) := by
  have hremember : p.SameMark (p.remember round) := ⟨rfl, rfl, rfl⟩
  have hneed := hremember.trans (asked_needAll (p := p.remember round) round).sameMark
  unfold report
  -- Up to the negotiation the mark is not looked at, so whatever is cut short there leaves it.
  rcases h : (p.remember round).needAll round with ⟨f | need, q⟩ <;> rw [h] at hneed
  · exact .nothing hneed
  refine .of_sameMark hneed ?_
  have hschedule := scheduled_schedule round need.lookback q
  simp only
  rcases h' : q.schedule round need.lookback with ⟨f | _ | k, q'⟩ <;> rw [h'] at hschedule <;>
    simp only
  · cases hschedule with
    | cutShort hfree hmarked => exact .cutShort hfree hmarked
  · cases hschedule with
    | nothing hsame => exact .nothing hsame
  · cases hschedule with
    | ticket hfree hmarked =>
      rcases dispatch_cases k q' with ⟨hopen, hqueued⟩ | hback
      · refine .queued (k := k) hfree (hmarked.intake ▸ hopen) ?_
        exact ⟨hqueued.inFlight.trans hmarked.inFlight,
          hqueued.queue.trans (congrArg (· ++ [k]) hmarked.queue),
          hqueued.intake.trans hmarked.intake⟩
      · exact .nothing ⟨hback.inFlight.trans hfree.symm, hback.queue.trans hmarked.queue,
          hback.intake.trans hmarked.intake⟩

/-- The worker gives the mark back and then may report once more. -/
theorem reported_complete (handled : Round) (p : Pipeline τ) :
    ∃ result, p.clearMark.Reported (result, (p.complete handled).2) ∧
      (p.complete handled).1 = result.map fun _ => () := by
  obtain ⟨-, heq⟩ | ⟨-, result, q, hreport, heq⟩ := complete_cases handled p <;> rw [heq]
  · exact ⟨.ok handled, .nothing (.refl _), rfl⟩
  · have hlog : p.clearMark.SameMark (p.clearMark.log (.followUp handled p.reported)) :=
      (asked_log _).sameMark
    have hended := Reported.of_sameMark hlog (reported_report p.reported _)
    rw [hreport] at hended
    exact ⟨result, hended, rfl⟩

/-- While the mark is set nobody is given a ticket, and none is queued. -/
theorem refused_of_inFlight (hmark : p.inFlight = true) :
    (∀ committed lookback, (p.schedule committed lookback).1 = .ok none) ∧
      ∀ round, (p.report round).2.queue = p.queue := by
  refine ⟨fun committed lookback => ?_, fun round => ?_⟩
  · have hschedule := scheduled_schedule committed lookback p
    generalize p.schedule committed lookback = result at hschedule
    cases hschedule with
    | nothing hsame => rfl
    | ticket hfree hmarked => rw [hfree] at hmark; cases hmark
    | cutShort hfree hmarked => rw [hfree] at hmark; cases hmark
  · have hreport := reported_report round p
    generalize p.report round = result at hreport
    cases hreport with
    | nothing hsame => exact hsame.queue
    | queued hfree hopen hmarked => rw [hfree] at hmark; cases hmark
    | cutShort hfree hmarked => rw [hfree] at hmark; cases hmark

end Pipeline

/-! ## Custody -/

/-- A pipeline with everybody who may have a ticket. -/
structure Custody (τ : Type) where
  /-- The pipeline. -/
  pipeline : Pipeline τ
  /-- What the worker has in its hand. -/
  hand : Hand
  /-- The tickets that callers were given and have not run yet, the oldest first. -/
  held : List Ticket
  /-- The tickets that went down with the queue. -/
  lost : List Ticket

/-- Mark and tickets, with those who have them. -/
structure Tally where
  /-- Whether the mark of a cycle in flight is set. -/
  mark : Bool
  /-- The tickets on their way to the worker, oldest first. -/
  queue : List Ticket
  /-- Whether nobody will take a ticket out of the queue any more. -/
  gone : Bool
  /-- What the worker has in its hand. -/
  hand : Hand
  /-- The tickets that callers hold. -/
  held : List Ticket
  /-- The tickets that went down with the queue. -/
  lost : List Ticket

namespace Custody

variable {τ : Type}

/-- Nobody has a ticket yet. -/
def opened (p : Pipeline τ) : Custody τ := ⟨p, .free, [], []⟩

/-- Mark and tickets. -/
def tally (n : Custody τ) : Tally where
  mark := n.pipeline.inFlight
  queue := n.pipeline.queue
  gone := n.pipeline.intake = .gone
  hand := n.hand
  held := n.held
  lost := n.lost

/-- With the same people holding the same tickets, only mark and queue of the pipeline count. -/
theorem tally_of_sameMark {p q : Pipeline τ} (h : p.SameMark q) (hand : Hand)
    (held lost : List Ticket) :
    (Custody.mk q hand held lost).tally = (Custody.mk p hand held lost).tally := by
  simp only [tally, h.inFlight, h.queue, h.intake]

/-- A pipeline as it is opened has no mark and no ticket. -/
theorem tally_opened {trackers : List τ} {config : Config} {store : Store}
    {effects : Effects} {p : Pipeline τ}
    (hopen : Pipeline.open? trackers config store effects = .ok p) :
    (opened p).tally = ⟨false, [], false, .free, [], []⟩ := by
  obtain rfl := Pipeline.open?_eq_ok hopen
  rfl

end Custody

/-- What callers and the worker may do, one call at a time. -/
inductive Deed where
  /-- The trackers are loaded from the store, and the ledger is replayed. -/
  | load (ledger : LedgerView)
  /-- A block is handed to the trackers. -/
  | newBlock (block : Block) (delta : Delta)
  /-- The trackers are closed. -/
  | close
  /-- A worker takes over the receiving end of the queue. -/
  | startWorker
  /-- A round is reported committed. -/
  | report (round : Round)
  /-- A range is negotiated; the caller keeps the ticket. -/
  | schedule (committed : Round) (lookback : UInt64)
  /-- A caller runs the cycle of a ticket it was given. -/
  | commitHeld (place : Nat)
  /-- A caller runs the cycle of some other ticket: one that was run before, or one that nobody
  negotiated. -/
  | commitOther (ticket : Ticket)
  /-- The worker takes the oldest ticket. -/
  | take
  /-- The worker runs the cycle of its ticket, with retries. -/
  | work
  /-- The worker is done with its cycle. -/
  | complete
  /-- The worker stops; what is in the queue goes down with it. -/
  | retire

namespace Deed

variable {τ : Type} [Tracker τ]

/-- The ticket that a negotiation gave, if it gave one. -/
def given : Except Fault (Option Ticket) → List Ticket
  | .ok k => k.toList
  | .error _ => []

/-- What a deed leaves. Without somebody to do it, it leaves everything as it was. -/
def run : Deed → Custody τ → Custody τ
  | load ledger, n => { n with pipeline := (n.pipeline.load ledger).2 }
  | newBlock block delta, n => { n with pipeline := (n.pipeline.newBlock block delta).2 }
  | close, n => { n with pipeline := n.pipeline.close.2 }
  | startWorker, n => { n with pipeline := Request.startWorker.run n.pipeline }
  | report round, n => { n with pipeline := (n.pipeline.report round).2 }
  | schedule committed lookback, n =>
    { n with
      pipeline := (n.pipeline.schedule committed lookback).2
      held := n.held ++ given (n.pipeline.schedule committed lookback).1 }
  | commitHeld place, n =>
    match n.held[place]? with
    | none => n
    | some k =>
      { n with pipeline := (n.pipeline.commit k).2.2, held := n.held.eraseIdx place }
  | commitOther k, n => { n with pipeline := (n.pipeline.commit k).2.2 }
  | take, n =>
    match n.hand, n.pipeline.takeTicket with
    | .free, some (k, p) => { n with pipeline := p, hand := .holding k }
    | _, _ => n
  | work, n =>
    match n.hand with
    | .holding k =>
      { n with pipeline := (Request.work k).run n.pipeline, hand := .ran k.committed }
    | .free | .ran _ => n
  | complete, n =>
    match n.hand with
    | .ran committed =>
      match n.pipeline.complete committed with
      | (.ok (), p) => { n with pipeline := p, hand := .free }
      -- The worker is cut short and goes down, and the queue with it.
      | (.error _, p) =>
        { n with pipeline := p.dropIntake, hand := .free, lost := n.lost ++ p.queue }
    | .free | .holding _ => n
  | retire, n =>
    match n.hand, n.pipeline.intake with
    | .free, .working =>
      { n with
        pipeline := (n.pipeline.log .workerStopped).dropIntake
        lost := n.lost ++ n.pipeline.queue }
    | _, _ => n

/-- Deeds one after the other. -/
def runAll (deeds : List Deed) (n : Custody τ) : Custody τ :=
  deeds.foldl (fun n deed => deed.run n) n

/-- Two runs one after the other are one. -/
theorem runAll_append (first second : List Deed) (n : Custody τ) :
    runAll (first ++ second) n = runAll second (runAll first n) := List.foldl_append

/-! ## What a deed does to mark and tickets -/

variable {n : Custody τ}

/-- The deeds after which nobody may be left to take the mark away: a negotiation that set it and
was cut short, a cycle that was cut short while a caller ran it, and the end of a worker that still
had tickets to take. -/
inductive Strands : Deed → Custody τ → Prop
  | report {n : Custody τ} {round : Round} {f : Fault} (hfree : n.pipeline.inFlight = false)
      (hcut : (n.pipeline.report round).1 = .error f) : Strands (.report round) n
  | schedule {n : Custody τ} {committed : Round} {lookback : UInt64} {f : Fault}
      (hfree : n.pipeline.inFlight = false)
      (hcut : (n.pipeline.schedule committed lookback).1 = .error f) :
      Strands (.schedule committed lookback) n
  | complete {n : Custody τ} {committed : Round} {f : Fault} (hran : n.hand = .ran committed)
      (hcut : (n.pipeline.complete committed).1 = .error f) : Strands .complete n
  | commitHeld {n : Custody τ} {place : Nat} {k : Ticket} {f : Fault}
      (hheld : n.held[place]? = some k) (hcut : (n.pipeline.commit k).1 = .error (.fault f)) :
      Strands (.commitHeld place) n
  | retire {n : Custody τ} (hfree : n.hand = .free) (hworking : n.pipeline.intake = .working)
      (hqueue : n.pipeline.queue ≠ []) : Strands .retire n

/-- All that a deed may do to mark and tickets. -/
inductive Leaves (n : Custody τ) : Deed → Tally → Prop
  -- Negotiations. Only a free mark is set, and a ticket is queued only where it may be taken.
  | nothing {d : Deed} : Leaves n d n.tally
  | queues {d : Deed} (k : Ticket) (hfree : n.tally.mark = false) (hopen : n.tally.gone = false) :
      Leaves n d { n.tally with mark := true, queue := n.tally.queue ++ [k] }
  | gives {d : Deed} (k : Ticket) (hfree : n.tally.mark = false) :
      Leaves n d { n.tally with mark := true, held := n.tally.held ++ [k] }
  | cutsNegotiation {d : Deed} (hfree : n.tally.mark = false) (hstrands : d.Strands n) :
      Leaves n d { n.tally with mark := true }
  -- Cycles that callers run. Nothing is asked of the mark: it may be somebody else's, or free.
  | runsHeld {place : Nat} (hplace : place < n.tally.held.length) :
      Leaves n (.commitHeld place)
        { n.tally with mark := false, held := n.tally.held.eraseIdx place }
  | cutsHeld {place : Nat} (hplace : place < n.tally.held.length)
      (hstrands : (Deed.commitHeld place).Strands n) :
      Leaves n (.commitHeld place) { n.tally with held := n.tally.held.eraseIdx place }
  | runsOther {k : Ticket} (hanswered : ∀ f, (n.pipeline.commit k).1 ≠ .error (.fault f)) :
      Leaves n (.commitOther k) { n.tally with mark := false }
  -- The worker, from the ticket that it takes until its cycle is completed.
  | takes {k : Ticket} {rest : List Ticket} (hfree : n.tally.hand = .free)
      (hopen : n.tally.gone = false) (hqueue : n.tally.queue = k :: rest) :
      Leaves n .take { n.tally with queue := rest, hand := .holding k }
  | works {k : Ticket} (hholding : n.tally.hand = .holding k) :
      Leaves n .work { n.tally with hand := .ran k.committed }
  | completes {committed : Round} (hran : n.tally.hand = .ran committed) :
      Leaves n .complete { n.tally with mark := false, hand := .free }
  | followsUp {committed : Round} (k : Ticket) (hran : n.tally.hand = .ran committed)
      (hopen : n.tally.gone = false) :
      Leaves n .complete
        { n.tally with mark := true, queue := n.tally.queue ++ [k], hand := .free }
  -- The ends of the worker. The queue goes down with it, and nobody sends into it any more.
  | cutsFollowUp {committed : Round} (mark : Bool) (hran : n.tally.hand = .ran committed)
      (hstrands : Deed.complete.Strands n) :
      Leaves n .complete
        { n.tally with
          mark, queue := [], gone := true, hand := .free, lost := n.tally.lost ++ n.tally.queue }
  | retires (hfree : n.tally.hand = .free)
      (hstrands : n.tally.queue ≠ [] → Deed.retire.Strands n) :
      Leaves n .retire
        { n.tally with queue := [], gone := true, lost := n.tally.lost ++ n.tally.queue }

/-- A deed after which mark and queue are what they were, and that touches nobody who has a ticket,
does nothing to them. -/
theorem Leaves.of_sameMark {d : Deed} {p : Pipeline τ} (h : n.pipeline.SameMark p) :
    Leaves n d (Custody.tally { n with pipeline := p }) := by
  rw [Custody.tally_of_sameMark h]
  exact .nothing

omit [Tracker τ] in
theorem gone_eq_false (h : n.pipeline.intake ≠ .gone) : n.tally.gone = false :=
  decide_eq_false h

/-- A report may set the mark for one more ticket in the queue. -/
theorem leaves_report (round : Round) (n : Custody τ) :
    (Deed.report round).Leaves n ((Deed.report round).run n).tally := by
  have hreport := Pipeline.reported_report round n.pipeline
  rw [run]
  rcases h : n.pipeline.report round with ⟨result, q⟩
  rw [h] at hreport
  cases hreport with
  | nothing hsame => exact .of_sameMark hsame
  | @queued floor k q hfree hopen hmarked =>
    rw [Custody.tally_of_sameMark hmarked]
    exact .queues k hfree (gone_eq_false hopen)
  | cutShort hfree hmarked =>
    rw [Custody.tally_of_sameMark hmarked]
    exact .cutsNegotiation hfree (.report hfree (congrArg Prod.fst h))

/-- A negotiation may set the mark for a ticket in the hands of its caller. -/
theorem leaves_schedule (committed : Round) (lookback : UInt64) (n : Custody τ) :
    (Deed.schedule committed lookback).Leaves n
      ((Deed.schedule committed lookback).run n).tally := by
  have hschedule := Pipeline.scheduled_schedule committed lookback n.pipeline
  rw [run]
  rcases h : n.pipeline.schedule committed lookback with ⟨result, q⟩
  rw [h] at hschedule
  cases hschedule with
  | nothing hsame =>
    simp only [given, Option.toList, List.append_nil]
    exact .of_sameMark hsame
  | @ticket k q hfree hmarked =>
    rw [Custody.tally_of_sameMark hmarked]
    exact .gives k hfree
  | cutShort hfree hmarked =>
    simp only [given, List.append_nil]
    rw [Custody.tally_of_sameMark hmarked]
    exact .cutsNegotiation hfree (.schedule hfree (congrArg Prod.fst h))

/-- A caller that runs the cycle of its ticket gives both back, or the mark stays if the cycle is
cut short. -/
theorem leaves_commitHeld (place : Nat) (n : Custody τ) :
    (Deed.commitHeld place).Leaves n ((Deed.commitHeld place).run n).tally := by
  rw [run]
  cases hheld : n.held[place]? with
  | none => exact .nothing
  | some k =>
    obtain ⟨hplace, -⟩ := List.getElem?_eq_some_iff.mp hheld
    rcases Pipeline.commit_cases k n.pipeline with ⟨⟨f, hcut⟩, hsame⟩ | ⟨-, hcleared⟩
    · rw [Custody.tally_of_sameMark hsame]
      exact .cutsHeld hplace (.commitHeld hheld hcut)
    · rw [Custody.tally_of_sameMark hcleared]
      exact .runsHeld hplace

/-- A cycle that is not cut short takes the mark away, whosever ticket it was run for. -/
theorem tally_commitOther {k : Ticket}
    (hanswered : ∀ f, (n.pipeline.commit k).1 ≠ .error (.fault f)) :
    ((Deed.commitOther k).run n).tally = { n.tally with mark := false } := by
  rcases Pipeline.commit_cases k n.pipeline with ⟨⟨f, hcut⟩, -⟩ | ⟨-, hcleared⟩
  · exact absurd hcut (hanswered f)
  · rw [run, Custody.tally_of_sameMark hcleared]
    rfl

/-- A cycle for a ticket from elsewhere takes the mark away, whosever it is. -/
theorem leaves_commitOther (k : Ticket) (n : Custody τ) :
    (Deed.commitOther k).Leaves n ((Deed.commitOther k).run n).tally := by
  rcases Pipeline.commit_cases k n.pipeline with ⟨-, hsame⟩ | ⟨hanswered, -⟩
  · exact .of_sameMark hsame
  · rw [tally_commitOther hanswered]
    exact .runsOther hanswered

/-- The worker takes the first ticket of the queue into its hand. -/
theorem leaves_take (n : Custody τ) : Deed.take.Leaves n (Deed.take.run n).tally := by
  rw [run]
  split
  · next k p hfree htake =>
    obtain ⟨hintake, rest, hqueue, rfl⟩ := Pipeline.takeTicket_eq_some htake
    have hopen : n.tally.gone = false := gone_eq_false (by simp [hintake])
    exact .takes hfree hopen hqueue
  · exact .nothing

/-- The worker gives the mark back, and may set it again for the ticket of a follow-up. -/
theorem leaves_complete (n : Custody τ) : Deed.complete.Leaves n (Deed.complete.run n).tally := by
  rw [run]
  split
  · next committed hran =>
    obtain ⟨result, hreport, hanswer⟩ := Pipeline.reported_complete committed n.pipeline
    rcases h : n.pipeline.complete committed with ⟨f | _, q⟩ <;> rw [h] at hreport hanswer <;>
      replace hreport : n.pipeline.clearMark.Reported (result, q) := hreport
    -- Cut short or not, a follow-up that was cut short has put nothing into the queue.
    · have hqueue : q.queue = n.pipeline.queue := by
        cases hreport with
        | nothing hsame => exact hsame.queue
        | queued hfree hopen hmarked => cases hanswer
        | cutShort hfree hmarked => exact hmarked.queue
      simp only [hqueue]
      exact .cutsFollowUp q.inFlight hran (.complete hran (congrArg Prod.fst h))
    · cases hreport with
      | nothing hsame =>
        rw [Custody.tally_of_sameMark hsame]
        exact .completes hran
      | @queued floor k q hfree hopen hmarked =>
        rw [Custody.tally_of_sameMark hmarked]
        exact .followsUp k hran (gone_eq_false hopen)
      | cutShort hfree hmarked => cases hanswer
  · exact .nothing
  · exact .nothing

/-- A worker that ends has free hands, and takes what is queued down with it. -/
theorem leaves_retire (n : Custody τ) : Deed.retire.Leaves n (Deed.retire.run n).tally := by
  rw [run]
  split
  · next hfree hworking =>
    exact .retires hfree fun hqueue => .retire hfree hworking hqueue
  · exact .nothing

/-- Whatever is done, this is all that it does to mark and tickets. -/
theorem leaves_run (d : Deed) (n : Custody τ) : d.Leaves n (d.run n).tally := by
  cases d with
  | load ledger => exact .of_sameMark (Pipeline.sameMark_load ledger n.pipeline)
  | newBlock block delta => exact .of_sameMark (Pipeline.asked_newBlock block delta).sameMark
  | close => exact .of_sameMark (Pipeline.asked_close n.pipeline).sameMark
  | startWorker =>
    -- The queue is handed over, not given up.
    have hsame : (Deed.startWorker.run n).tally = n.tally := by
      rw [run]
      obtain heq | ⟨hunclaimed, heq⟩ := Pipeline.run_startWorker n.pipeline <;> rw [heq]
      simp [Custody.tally, hunclaimed]
    exact hsame ▸ .nothing
  | report round => exact leaves_report round n
  | schedule committed lookback => exact leaves_schedule committed lookback n
  | commitHeld place => exact leaves_commitHeld place n
  | commitOther k => exact leaves_commitOther k n
  | take => exact leaves_take n
  | work =>
    rw [run]
    split
    · next k hholding =>
      rw [Custody.tally_of_sameMark (Pipeline.sameMark_work k n.pipeline)]
      exact .works hholding
    · exact .nothing
    · exact .nothing
  | complete => exact leaves_complete n
  | retire => exact leaves_retire n

end Deed

end CommitPipeline
