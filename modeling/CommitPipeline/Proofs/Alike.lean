import CommitPipeline.Pipeline.Load
import CommitPipeline.Pipeline.Worker
import Mathlib.Data.List.Forall2

/-!
# Pipelines that behave alike

Two pipelines that differ in what was reported so far, and in trackers that nobody can tell apart,
go on alike whatever is done to both of them. "Nobody can tell apart" is a bisimulation: related
trackers give the same answer to every question and are related again behind it.

The module introduces:

* `Respects` — an action that related states answer alike;
* `Tracker.Bisimulation` — a relation that every question to a tracker respects;
* `Pipeline.Alike` — pipelines with the same settings, store, marks, queue and signals over related
  trackers;
* `Pipeline.alike_report`, `Pipeline.alike_runCycle` and their like — one lemma for each operation.
-/

namespace CommitPipeline

/-- Related states answer alike and are related again afterwards. -/
def Respects {ε σ α : Type} (R : σ → σ → Prop) (act : Act ε σ α) : Prop :=
  ∀ x y, R x y → (act x).1 = (act y).1 ∧ R (act x).2 (act y).2

/-- Trackers are related, and so is the context in which they are asked. -/
def Beside {τ κ : Type} (T : τ → τ → Prop) (C : κ → κ → Prop) (x y : τ × κ) : Prop :=
  T x.1 y.1 ∧ C x.2 y.2

/-- What was reported may differ; the signals are the same. -/
def Effects.Alike (fx fy : Effects) : Prop := fx.signals = fy.signals

/-- What was reported may differ; the signals and what goes with them are the same. -/
def Effects.AlikeWith {β : Type} (c d : Effects × β) : Prop :=
  c.1.signals = d.1.signals ∧ c.2 = d.2

/-- A sweep over related trackers in related contexts ends alike. -/
theorem sweep_respects {τ κ ε : Type} {T : τ → τ → Prop} {C : κ → κ → Prop}
    {ask : Act ε (τ × κ) Unit} (hask : Respects (Beside T C) ask) {ts us : List τ} {c d : κ}
    (htrackers : List.Forall₂ T ts us) (hc : C c d) :
    (sweep ask ts c).1 = (sweep ask us d).1 ∧
      List.Forall₂ T (sweep ask ts c).2.1 (sweep ask us d).2.1 ∧
      C (sweep ask ts c).2.2 (sweep ask us d).2.2 := by
  -- By induction on both lists at once; if one tracker stops, so does the other.
  induction htrackers generalizing c d with
  | nil => exact ⟨rfl, .nil, hc⟩
  | @cons t u ts us htu hrest ih =>
    obtain ⟨hresult, htracker, hcontext⟩ := hask (t, c) (u, d) ⟨htu, hc⟩
    rcases h : ask (t, c) with ⟨result, t', c'⟩
    rcases h' : ask (u, d) with ⟨result', u', d'⟩
    rw [h, h'] at hresult htracker hcontext
    obtain rfl : result = result' := hresult
    rw [sweep, sweep, h, h']
    cases result with
    | error e => exact ⟨rfl, .cons htracker hrest, hcontext⟩
    | ok _ =>
      obtain ⟨hresult, htrackers, hcontext⟩ := ih hcontext
      exact ⟨hresult, .cons htracker htrackers, hcontext⟩

/-- Trackers that nobody can tell apart. -/
structure Tracker.Bisimulation {τ : Type} [Tracker τ] (T : τ → τ → Prop) : Prop where
  name : ∀ t u, T t u → Tracker.name t = Tracker.name u
  load : ∀ ledger s r, Respects (Beside T Effects.Alike) (Tracker.load ledger s r)
  newBlock : ∀ block delta, Respects (Beside T Effects.Alike) (Tracker.newBlock block delta)
  need : ∀ committed, Respects (Beside T Effects.Alike) (Tracker.need committed)
  refine : ∀ committed durable range,
    Respects (Beside T Effects.Alike) (Tracker.refine committed durable range)
  prepare : Respects (Beside T Effects.AlikeWith) Tracker.prepare
  write : Respects (Beside T Effects.AlikeWith) Tracker.write
  notice : ∀ n k, Respects (Beside T Effects.Alike) (Tracker.notice n k)
  close : Respects (Beside T Effects.Alike) Tracker.close

namespace Pipeline

variable {τ : Type} {T : τ → τ → Prop} {p q : Pipeline τ}

/-- The second pipeline is the first one but for what was reported, and for its trackers, which are
related to those of the first. -/
def Alike (T : τ → τ → Prop) (p q : Pipeline τ) : Prop :=
  ∃ trackers effects, q = { p with trackers, effects } ∧
    List.Forall₂ T p.trackers trackers ∧ p.effects.Alike effects

/-- The same answer, and pipelines that are alike. -/
def SameAnswer {α : Type} (T : τ → τ → Prop) (x y : α × Pipeline τ) : Prop :=
  ∃ answer p q, x = (answer, p) ∧ y = (answer, q) ∧ p.Alike T q

/-- The same answer, the same ticket, and pipelines that are alike. -/
def SameEnd {α : Type} (T : τ → τ → Prop) (x y : α × Ticket × Pipeline τ) : Prop :=
  ∃ answer k p q, x = (answer, k, p) ∧ y = (answer, k, q) ∧ p.Alike T q

/-- Reporting is no difference: alike pipelines are alike whatever each of them has reported. -/
theorem alike_log (h : p.Alike T q) (e : Event) : (p.log e).Alike T (q.log e) := by
  obtain ⟨us, fx, rfl, htrackers, hsignals⟩ := h
  exact ⟨us, _, rfl, htrackers, hsignals⟩

/-- Both pipelines take the mark off. -/
theorem alike_clearMark (h : p.Alike T q) : p.clearMark.Alike T q.clearMark := by
  obtain ⟨us, fx, rfl, htrackers, hsignals⟩ := h
  exact ⟨us, fx, rfl, htrackers, hsignals⟩

/-- Both pipelines give up the queue and the tickets in it. -/
theorem alike_dropIntake (h : p.Alike T q) : p.dropIntake.Alike T q.dropIntake := by
  obtain ⟨us, fx, rfl, htrackers, hsignals⟩ := h
  exact ⟨us, fx, rfl, htrackers, hsignals⟩

/-- A reported round is remembered by both. -/
theorem alike_remember (h : p.Alike T q) (round : Round) :
    (p.remember round).Alike T (q.remember round) := by
  obtain ⟨us, fx, rfl, htrackers, hsignals⟩ := h
  exact ⟨us, fx, rfl, htrackers, hsignals⟩

/-- A question that related trackers answer alike can be put to both pipelines: both end at the same
answer. -/
theorem alike_ask {ε : Type} {a : Act ε (τ × Effects) Unit} (h : p.Alike T q)
    (ha : Respects (Beside T Effects.Alike) a) : SameAnswer T (p.ask a) (q.ask a) := by
  obtain ⟨us, fx, rfl, htrackers, hsignals⟩ := h
  obtain ⟨hresult, hasked⟩ := sweep_respects ha htrackers hsignals
  refine ⟨_, _, _, rfl, Prod.ext hresult.symm rfl, _, _, rfl, hasked⟩

/-- Whether the queue takes a ticket does not depend on what differs. -/
theorem alike_enqueue (h : p.Alike T q) (k : Ticket) :
    (∃ refusal, p.enqueue k = .error refusal ∧ q.enqueue k = .error refusal) ∨
      ∃ p' q', p.enqueue k = .ok p' ∧ q.enqueue k = .ok q' ∧ p'.Alike T q' := by
  obtain ⟨us, fx, rfl, htrackers, hsignals⟩ := h
  unfold enqueue
  simp only
  split
  · exact .inl ⟨_, rfl, rfl⟩
  all_goals
    split
    · exact .inr ⟨_, _, rfl, rfl, us, fx, rfl, htrackers, hsignals⟩
    · exact .inl ⟨_, rfl, rfl⟩

/-- A ticket goes into both queues, or both pipelines refuse it and take the mark off. -/
theorem alike_dispatch (h : p.Alike T q) (k : Ticket) : (p.dispatch k).Alike T (q.dispatch k) := by
  unfold dispatch
  obtain ⟨refusal, hp, hq⟩ | ⟨p', q', hp, hq, h'⟩ := alike_enqueue h k <;> rw [hp, hq]
  · exact alike_clearMark (alike_log h _)
  · exact h'

/-- What trackers left of a range becomes the same ticket in both pipelines, or none. -/
theorem alike_conclude (h : p.Alike T q) (committed : Round) (range : CommitRange) :
    SameAnswer T (p.conclude committed range) (q.conclude committed range) := by
  unfold conclude
  split
  · exact ⟨_, _, _, rfl, rfl, alike_clearMark h⟩
  · cases range.newBase with
    | error f => exact ⟨_, _, _, rfl, rfl, h⟩
    | ok newBase => exact ⟨_, _, _, rfl, rfl, alike_log h _⟩

/-- The workers of both pipelines take the same ticket, or find none. -/
theorem alike_takeTicket (h : p.Alike T q) :
    (p.takeTicket = none ∧ q.takeTicket = none) ∨
      ∃ k p' q', p.takeTicket = some (k, p') ∧ q.takeTicket = some (k, q') ∧ p'.Alike T q' := by
  obtain ⟨us, fx, rfl, htrackers, hsignals⟩ := h
  unfold takeTicket
  simp only
  split
  · exact .inr ⟨_, _, _, rfl, rfl, us, fx, rfl, htrackers, hsignals⟩
  · exact .inl ⟨rfl, rfl⟩

/-- A worker starts for both pipelines, or both have one already. -/
theorem alike_startWorker (h : p.Alike T q) :
    (∃ e, p.startWorker = .error e ∧ q.startWorker = .error e) ∨
      ∃ p' q', p.startWorker = .ok p' ∧ q.startWorker = .ok q' ∧ p'.Alike T q' := by
  obtain ⟨us, fx, rfl, htrackers, hsignals⟩ := h
  unfold startWorker
  simp only
  split
  · exact .inr ⟨_, _, rfl, rfl, us, fx, rfl, htrackers, hsignals⟩
  · exact .inl ⟨_, rfl, rfl⟩
  · exact .inl ⟨_, rfl, rfl⟩

variable [Tracker τ]

/-- Both pipelines tell their trackers how a cycle goes on. -/
theorem alike_tell (hT : Tracker.Bisimulation T) (h : p.Alike T q) (n : Notice) (k : Ticket) :
    SameAnswer T (p.tell n k) (q.tell n k) := alike_ask h (hT.notice n k)

/-- A block goes to the trackers of both pipelines. -/
theorem alike_newBlock (hT : Tracker.Bisimulation T) (h : p.Alike T q) (block : Block)
    (delta : Delta) : SameAnswer T (p.newBlock block delta) (q.newBlock block delta) :=
  alike_ask h (hT.newBlock block delta)

/-- A tracker that cuts the closing short cuts it short in both pipelines. -/
theorem alike_close (hT : Tracker.Bisimulation T) (h : p.Alike T q) :
    p.close.2.Alike T q.close.2 := by
  obtain ⟨result, p', q', hp, hq, h'⟩ := alike_ask h hT.close
  unfold close
  rw [hp, hq]
  cases result with
  | error f => exact h'
  | ok _ => exact alike_log h' _

/-! ## Negotiations -/

/-- What a tracker still needs is put together with the needs of those before it, and related
trackers need the same. -/
theorem respects_needOne (hT : Tracker.Bisimulation T) (committed : Round) :
    Respects (Beside T Effects.AlikeWith) (needOne (τ := τ) committed) := by
  rintro ⟨t, fx, joint⟩ ⟨u, fy, joint'⟩ ⟨htu, hsignals, rfl⟩
  obtain ⟨hresult, htracker, hsignals⟩ := hT.need committed (t, fx) (u, fy) ⟨htu, hsignals⟩
  rcases h : Tracker.need committed (t, fx) with ⟨result, t', fx'⟩
  rcases h' : Tracker.need committed (u, fy) with ⟨result', u', fy'⟩
  rw [h, h'] at hresult htracker hsignals
  obtain rfl : result = result' := hresult
  simp only [needOne, h, h']
  cases result with
  | error f => exact ⟨rfl, htracker, hsignals, rfl⟩
  | ok need => exact ⟨rfl, htracker, hsignals, rfl⟩

/-- Both pipelines find the same need among all their trackers. -/
theorem alike_needAll (hT : Tracker.Bisimulation T) (h : p.Alike T q) (committed : Round) :
    SameAnswer T (p.needAll committed) (q.needAll committed) := by
  obtain ⟨us, fx, rfl, htrackers, hsignals⟩ := h
  have hsweep := sweep_respects (respects_needOne hT committed) htrackers
    (c := (p.effects, (⟨committed, 0⟩ : Need))) (d := (fx, ⟨committed, 0⟩)) ⟨hsignals, rfl⟩
  obtain ⟨hresult, hasked, hsignals, hneed⟩ := hsweep
  refine ⟨_, _, _, rfl, Prod.ext ?_ rfl, _, _, rfl, hasked, hsignals⟩
  simp only [needAll, hresult, hneed]

/-- Related trackers narrow a range to the same one, or object alike. -/
theorem respects_refineOne (hT : Tracker.Bisimulation T) (committed durable : Round) :
    Respects (Beside T Effects.AlikeWith) (refineOne (τ := τ) committed durable) := by
  rintro ⟨t, fx, range⟩ ⟨u, fy, range'⟩ ⟨htu, hsignals, rfl⟩
  obtain ⟨hresult, htracker, hsignals⟩ :=
    hT.refine committed durable range (t, fx) (u, fy) ⟨htu, hsignals⟩
  rcases h : Tracker.refine committed durable range (t, fx) with ⟨result, t', fx'⟩
  rcases h' : Tracker.refine committed durable range (u, fy) with ⟨result', u', fy'⟩
  rw [h, h'] at hresult htracker hsignals
  obtain rfl : result = result' := hresult
  simp only [refineOne, h, h']
  rcases result with f | _ | narrowed
  · exact ⟨rfl, htracker, hsignals, rfl⟩
  -- A veto is answered with the name of the tracker.
  · exact ⟨congrArg (fun name => Except.error (Refusal.veto name)) (hT.name t' u' htracker),
      htracker, hsignals, rfl⟩
  · exact ⟨rfl, htracker, hsignals, rfl⟩

/-- The trackers of both pipelines agree on the same range, or none of them does. -/
theorem alike_refineAll (hT : Tracker.Bisimulation T) (h : p.Alike T q) (committed : Round)
    (range : CommitRange) :
    SameAnswer T (p.refineAll committed range) (q.refineAll committed range) := by
  obtain ⟨us, fx, rfl, htrackers, hsignals⟩ := h
  have hsweep := sweep_respects (respects_refineOne hT committed p.durable) htrackers
    (c := (p.effects, range)) (d := (fx, range)) ⟨hsignals, rfl⟩
  obtain ⟨hresult, hasked, hsignals, hrange⟩ := hsweep
  refine ⟨_, _, _, rfl, Prod.ext ?_ rfl, _, _, rfl, hasked, hsignals⟩
  simp only [refineAll, hresult, hrange]

/-- A negotiation begins in both pipelines or in neither, and ends with the same ticket. -/
theorem alike_negotiate (hT : Tracker.Bisimulation T) (h : p.Alike T q) (committed : Round)
    (lookback : UInt64) :
    SameAnswer T (p.negotiate committed lookback) (q.negotiate committed lookback) := by
  have hpropose : q.propose committed lookback = p.propose committed lookback := by
    obtain ⟨us, fx, rfl, -⟩ := h
    rfl
  obtain ⟨result, p', q', hp, hq, h'⟩ :=
    alike_refineAll hT h committed (p.propose committed lookback)
  unfold negotiate
  simp only [hpropose]
  split
  · exact ⟨_, _, _, rfl, rfl, alike_clearMark h⟩
  rw [hp, hq]
  rcases result with (tracker | f) | range
  · exact ⟨_, _, _, rfl, rfl, alike_clearMark (alike_log h' _)⟩
  · exact ⟨_, _, _, rfl, rfl, h'⟩
  · exact alike_conclude h' committed range

/-- A range that a caller asks for is scheduled in both pipelines or in neither. -/
theorem alike_schedule (hT : Tracker.Bisimulation T) (h : p.Alike T q) (committed : Round)
    (lookback : UInt64) :
    SameAnswer T (p.schedule committed lookback) (q.schedule committed lookback) := by
  have hlog := alike_log h (.alreadyInFlight committed)
  obtain ⟨us, fx, rfl, htrackers, hsignals⟩ := h
  unfold schedule claimMark
  by_cases hmark : p.inFlight
  · simp only [if_pos hmark]
    exact ⟨_, _, _, rfl, rfl, hlog⟩
  · simp only [if_neg hmark]
    exact alike_negotiate (p := { p with inFlight := true }) hT
      ⟨us, fx, rfl, htrackers, hsignals⟩ committed lookback

/-- A report is answered with the same round, and schedules the same ticket or none. -/
theorem alike_report (hT : Tracker.Bisimulation T) (h : p.Alike T q) (round : Round) :
    SameAnswer T (p.report round) (q.report round) := by
  obtain ⟨need, p₁, q₁, hp, hq, h₁⟩ := alike_needAll hT (alike_remember h round) round
  unfold report
  rw [hp, hq]
  cases need with
  | error f => exact ⟨_, _, _, rfl, rfl, h₁⟩
  | ok need =>
    obtain ⟨offer, p₂, q₂, hp, hq, h₂⟩ := alike_schedule hT h₁ round need.lookback
    simp only [hp, hq]
    rcases offer with f | _ | k
    · exact ⟨_, _, _, rfl, rfl, h₂⟩
    · exact ⟨_, _, _, rfl, rfl, h₂⟩
    · exact ⟨_, _, _, rfl, rfl, alike_dispatch h₂ k⟩

/-- When a cycle is over, both workers schedule the same ticket for what was reported meanwhile. -/
theorem alike_complete (hT : Tracker.Bisimulation T) (h : p.Alike T q) (handled : Round) :
    SameAnswer T (p.complete handled) (q.complete handled) := by
  have hmark := alike_clearMark h
  have hreported : q.clearMark.reported = p.clearMark.reported := by
    obtain ⟨us, fx, rfl, -⟩ := h
    rfl
  unfold complete
  simp only [hreported]
  by_cases hlt : handled < p.clearMark.reported
  · simp only [if_pos hlt]
    obtain ⟨answer, p', q', hp, hq, h'⟩ :=
      alike_report hT (alike_log hmark (.followUp handled p.clearMark.reported))
        p.clearMark.reported
    rw [hp, hq]
    cases answer with
    | error f => exact ⟨_, _, _, rfl, rfl, h'⟩
    | ok _ => exact ⟨_, _, _, rfl, rfl, h'⟩
  · simp only [if_neg hlt]
    exact ⟨_, _, _, rfl, rfl, hmark⟩

/-! ## Cycles -/

/-- The trackers of both pipelines get ready for a ticket, and hand on the same one. -/
theorem alike_prepareAll (hT : Tracker.Bisimulation T) (h : p.Alike T q) (k : Ticket) :
    SameEnd T (p.prepareAll k) (q.prepareAll k) := by
  obtain ⟨us, fx, rfl, htrackers, hsignals⟩ := h
  have hsweep := sweep_respects hT.prepare htrackers (c := (p.effects, k)) (d := (fx, k))
    ⟨hsignals, rfl⟩
  obtain ⟨hresult, hasked, hsignals, hticket⟩ := hsweep
  refine ⟨_, _, _, _, rfl, Prod.ext hresult.symm (Prod.ext hticket.symm rfl), _, _, rfl, hasked,
    hsignals⟩

/-- Both transactions are written, with the same rows, or both are given up. -/
theorem alike_transaction (hT : Tracker.Bisimulation T) (h : p.Alike T q) (newBase : Round)
    (k : Ticket) : SameEnd T (p.transaction newBase k) (q.transaction newBase k) := by
  obtain ⟨us, fx, rfl, htrackers, hsignals⟩ := h
  have hsweep := sweep_respects hT.write htrackers (c := (p.effects, k, p.store))
    (d := (fx, k, p.store)) ⟨hsignals, rfl⟩
  unfold transaction Store.transact writeAll
  simp only
  rcases hp : sweep Tracker.write p.trackers (p.effects, k, p.store) with
    ⟨result, ts', fx', k', working⟩
  rcases hq : sweep Tracker.write us (fx, k, p.store) with ⟨result', us', fy', k'', working'⟩
  rw [hp, hq] at hsweep
  obtain ⟨hresult, hasked, hsignals, hrest⟩ := hsweep
  obtain rfl : result = result' := hresult
  obtain ⟨rfl, rfl⟩ : k' = k'' ∧ working = working' := Prod.mk.inj hrest
  cases result with
  | error stop => exact ⟨_, _, _, _, rfl, rfl, _, _, rfl, hasked, hsignals⟩
  | ok _ => exact ⟨_, _, _, _, rfl, rfl, _, _, rfl, hasked, hsignals⟩

/-- A cycle that fails tells the trackers of both pipelines, and ends at the same error. -/
theorem alike_failWith (hT : Tracker.Bisimulation T) (h : p.Alike T q) (n : Notice)
    (e : PipelineError) (k : Ticket) : SameEnd T (p.failWith n e k) (q.failWith n e k) := by
  obtain ⟨result, p', q', hp, hq, h'⟩ := alike_tell hT h n k
  unfold failWith
  rw [hp, hq]
  cases result with
  | error f => exact ⟨_, _, _, _, rfl, rfl, h'⟩
  | ok _ => exact ⟨_, _, _, _, rfl, rfl, h'⟩

/-- Behind a transaction that was written both pipelines are at the new durable round. -/
theorem alike_settleLanded (hT : Tracker.Bisimulation T) (h : p.Alike T q) (newBase : Round)
    (k : Ticket) : SameEnd T (p.settleLanded newBase k) (q.settleLanded newBase k) := by
  have hmoved : ({ p with durable := newBase, flushed := true } : Pipeline τ).Alike T
      { q with durable := newBase, flushed := true } := by
    obtain ⟨us, fx, rfl, htrackers, hsignals⟩ := h
    exact ⟨us, fx, rfl, htrackers, hsignals⟩
  obtain ⟨first, p₁, q₁, hp, hq, h₁⟩ := alike_tell hT hmoved .landed { k with flushed := true }
  unfold settleLanded
  simp only [hp, hq]
  cases first with
  | error f => exact ⟨_, _, _, _, rfl, rfl, h₁⟩
  | ok _ =>
    obtain ⟨second, p₂, q₂, hp, hq, h₂⟩ := alike_tell hT h₁ .released { k with flushed := true }
    simp only [hp, hq]
    cases second with
    | error f => exact ⟨_, _, _, _, rfl, rfl, h₂⟩
    | ok _ => exact ⟨_, _, _, _, rfl, rfl, alike_log h₂ _⟩

/-- From the transaction on a cycle takes the same course in both pipelines. -/
theorem alike_writePhase (hT : Tracker.Bisimulation T) (h : p.Alike T q) (k : Ticket) :
    SameEnd T (p.writePhase k) (q.writePhase k) := by
  unfold writePhase
  cases k.newBase with
  | error f => exact ⟨_, _, _, _, rfl, rfl, h⟩
  | ok newBase =>
    obtain ⟨result, k', p', q', hp, hq, h'⟩ := alike_transaction hT h newBase k
    simp only [hp, hq]
    rcases result with (e | f) | _
    · exact alike_failWith hT (alike_log h' _) _ _ _
    · exact ⟨_, _, _, _, rfl, rfl, h'⟩
    · exact alike_settleLanded hT h' _ _

/-- From the preparation on a cycle takes the same course in both pipelines. -/
theorem alike_preparePhase (hT : Tracker.Bisimulation T) (h : p.Alike T q) (k : Ticket) :
    SameEnd T (p.preparePhase k) (q.preparePhase k) := by
  obtain ⟨result, k', p', q', hp, hq, h'⟩ := alike_prepareAll hT h k
  unfold preparePhase
  rw [hp, hq]
  rcases result with (e | f) | _
  · exact alike_failWith hT (alike_log h' _) _ _ _
  · exact ⟨_, _, _, _, rfl, rfl, h'⟩
  · exact alike_writePhase hT h' k'

/-- A ticket that is out of order is skipped by both pipelines. -/
theorem alike_skipPhase (hT : Tracker.Bisimulation T) (h : p.Alike T q) (k : Ticket) :
    SameEnd T (p.skipPhase k) (q.skipPhase k) := by
  have hdurable : q.durable = p.durable := by
    obtain ⟨us, fx, rfl, -⟩ := h
    rfl
  obtain ⟨result, p', q', hp, hq, h'⟩ :=
    alike_tell hT (alike_log h (.outOfOrder p.durable)) .outOfOrder k
  unfold skipPhase
  rw [hdurable, hp, hq]
  cases result with
  | error f => exact ⟨_, _, _, _, rfl, rfl, h'⟩
  | ok _ => exact ⟨_, _, _, _, rfl, rfl, h'⟩

/-- A cycle ends with the same outcome in both pipelines, a fault included. -/
theorem alike_runCycle (hT : Tracker.Bisimulation T) (h : p.Alike T q) (k : Ticket) :
    SameEnd T (p.runCycle k) (q.runCycle k) := by
  have hlog := alike_log h (.cycleEntered k.range.base k.range.length)
  unfold runCycle
  simp only
  generalize p.log (.cycleEntered k.range.base k.range.length) = p₁ at hlog ⊢
  generalize q.log (.cycleEntered k.range.base k.range.length) = q₁ at hlog ⊢
  -- Both pipelines go the same way, since they agree on what is looked at.
  have hsame : q₁.loaded = p₁.loaded ∧ q₁.durable = p₁.durable := by
    obtain ⟨us, fx, rfl, -⟩ := hlog
    exact ⟨rfl, rfl⟩
  rw [hsame.1, hsame.2]
  by_cases hloaded : (!p₁.loaded) = true
  · rw [if_pos hloaded, if_pos hloaded]
    exact ⟨_, _, _, _, rfl, rfl, hlog⟩
  rw [if_neg hloaded, if_neg hloaded]
  by_cases hbase : k.range.base ≠ p₁.durable
  · rw [if_pos hbase, if_pos hbase]
    exact alike_skipPhase hT hlog k
  · rw [if_neg hbase, if_neg hbase]
    exact alike_preparePhase hT hlog k

/-- The holder of a ticket sees the same end of its cycle in both pipelines. -/
theorem alike_commit (hT : Tracker.Bisimulation T) (h : p.Alike T q) (k : Ticket) :
    SameEnd T (p.commit k) (q.commit k) := by
  obtain ⟨result, k', p', q', hp, hq, h'⟩ := alike_runCycle hT h k
  unfold commit
  rw [hp, hq]
  rcases result with (e | f) | outcome
  · exact ⟨_, _, _, _, rfl, rfl, alike_clearMark h'⟩
  · exact ⟨_, _, _, _, rfl, rfl, h'⟩
  · exact ⟨_, _, _, _, rfl, rfl, alike_clearMark h'⟩

/-- Retries halve the same range equally often, by induction on those that are left. -/
theorem alike_retryHalving (hT : Tracker.Bisimulation T) (retries attempt : Nat) (k : Ticket)
    (h : p.Alike T q) :
    SameEnd T (p.retryHalving retries attempt k) (q.retryHalving retries attempt k) := by
  induction retries generalizing attempt k p q with
  | zero => exact alike_runCycle hT h k
  | succ retries ih =>
    obtain ⟨result, k', p', q', hp, hq, h'⟩ := alike_runCycle hT h k
    unfold retryHalving
    rw [hp, hq]
    -- Only an objection to a range of more than one round leads to another try.
    split
    · next heq =>
      obtain ⟨rfl, rfl, rfl⟩ := Prod.mk.inj heq |>.imp_right Prod.mk.inj
      simp only
      split
      · exact ih _ _ (alike_log h' _)
      · exact ⟨_, _, _, _, rfl, rfl, h'⟩
    · next hother =>
      split
      · next heq =>
        obtain ⟨rfl, rfl, rfl⟩ := Prod.mk.inj heq |>.imp_right Prod.mk.inj
        exact absurd rfl (hother _ _ _ _)
      · exact ⟨_, _, _, _, rfl, rfl, h'⟩

/-- The workers of both pipelines bring a ticket to the same end. -/
theorem alike_runWithRetries (hT : Tracker.Bisimulation T) (h : p.Alike T q) (k : Ticket) :
    SameEnd T (p.runWithRetries k) (q.runWithRetries k) := by
  have hconfig : q.config = p.config := by
    obtain ⟨us, fx, rfl, -⟩ := h
    rfl
  unfold runWithRetries
  rw [hconfig]
  exact alike_retryHalving hT _ 0 k h

/-! ## Loads -/

/-- The same blocks are replayed into both pipelines, by induction on how many are left. -/
theorem alike_replay (hT : Tracker.Bisimulation T) (ledger : LedgerView) (count : Nat) (r : Round)
    (h : p.Alike T q) : SameAnswer T (p.replay ledger count r) (q.replay ledger count r) := by
  induction count generalizing r p q with
  | zero => exact ⟨_, _, _, rfl, rfl, h⟩
  | succ count ih =>
    unfold replay
    cases ledger.block r with
    | none => exact ⟨_, _, _, rfl, rfl, alike_log h _⟩
    | some entry =>
      obtain ⟨block, delta⟩ := entry
      obtain ⟨result, p₁, q₁, hp, hq, h₁⟩ := alike_newBlock hT h block delta
      simp only [hp, hq]
      cases result with
      -- A tracker that stops the replay, a missing block or the last round end both replays.
      | error f => exact ⟨_, _, _, rfl, rfl, h₁⟩
      | ok _ =>
        cases r.next with
        | error f => exact ⟨_, _, _, rfl, rfl, h₁⟩
        | ok following =>
          obtain ⟨handed, p₂, q₂, hp, hq, h₂⟩ := ih following h₁
          simp only [hp, hq]
          cases handed with
          | error f => exact ⟨_, _, _, rfl, rfl, h₂⟩
          | ok handed => exact ⟨_, _, _, rfl, rfl, h₂⟩

/-- Both pipelines ask the ledger for the blocks above the same durable round. -/
theorem alike_replayAbove (hT : Tracker.Bisimulation T) (h : p.Alike T q) (ledger : LedgerView)
    (durable : Round) :
    SameAnswer T (p.replayAbove ledger durable) (q.replayAbove ledger durable) := by
  unfold replayAbove
  cases durable.next with
  | error f => exact ⟨_, _, _, rfl, rfl, h⟩
  | ok first => exact alike_replay hT ledger _ first h

/-- Loads of both pipelines from the same ledger have the same answer. -/
theorem alike_load (hT : Tracker.Bisimulation T) (h : p.Alike T q) (ledger : LedgerView) :
    SameAnswer T (p.load ledger) (q.load ledger) := by
  -- The first look is at the store, which is the same for both.
  have hstore : q.store = p.store := by
    obtain ⟨us, fx, rfl, -⟩ := h
    rfl
  obtain ⟨result, p₁, q₁, hp, hq, h₁⟩ := alike_ask h (hT.load ledger p.store p.store.round)
  unfold load
  simp only [hstore]
  split
  · exact ⟨_, _, _, rfl, rfl, h⟩
  rw [hp, hq]
  cases result with
  | error stop => exact ⟨_, _, _, rfl, rfl, h₁⟩
  | ok _ =>
    obtain ⟨replayed, p₂, q₂, hp, hq, h₂⟩ := alike_replayAbove hT h₁ ledger p.store.round
    simp only [hp, hq]
    cases replayed with
    | error f => exact ⟨_, _, _, rfl, rfl, h₂⟩
    | ok replayed =>
      refine ⟨_, _, _, rfl, rfl, alike_log ?_ _⟩
      obtain ⟨us, fx, rfl, htrackers, hsignals⟩ := h₂
      exact ⟨us, fx, rfl, htrackers, hsignals⟩

end Pipeline

end CommitPipeline
