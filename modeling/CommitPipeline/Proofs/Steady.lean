import CommitPipeline.Pipeline.Load
import CommitPipeline.Pipeline.Worker
import CommitPipeline.Proofs.Sweep
import CommitPipeline.Proofs.TailPhases
import CommitPipeline.Tracker.Member

/-!
# What changes only when a block comes in, a load runs or a cycle lands

Most of what a pipeline does leaves alone what its readers can see: the database, the durable
round, the bulletins with their signals, and the summaries of the tail. `Pipeline.Steady p q` says
that from `p` to `q` nothing else happened. Negotiations, the queue, the bookkeeping of the worker
and a cycle up to the end of its transaction are steady.

The module introduces:

* `Member.Steady`, `Pipeline.Steady` — the two relations, both reflexive and transitive;
* `Pipeline.steady_prepareAll`, `Pipeline.steady_report` and their like — one lemma for each
  operation;
* `KeepsRange` — guests that hand a ticket on with the range they were given.
-/

namespace CommitPipeline

variable {γ : Type}

/-- Guests that hand a ticket on with the range they were given. -/
class KeepsRange (γ : Type) [Guest γ] : Prop where
  /-- Getting ready to write leaves the range alone. -/
  range_prepare : ∀ (g : γ) (k : Ticket), (Guest.prepare (g, k)).2.2.range = k.range
  /-- Writing leaves the range alone. -/
  range_write : ∀ (g : γ) (k : Ticket) (s : Store), (Guest.write (g, k, s)).2.2.1.range = k.range

namespace Member

/-- From one member to the other nothing changed that readers see: bulletins are what they were, a
tail may have other rows picked, and of guests nothing is said. -/
inductive Steady : Member γ → Member γ → Prop
  | memory (b : Bulletin) : Steady (memory b) (memory b)
  | durable (b : Bulletin) : Steady (durable b) (durable b)
  | tail (t : Tail) (staged : List (Round × Summary)) : Steady (tail t) (tail { t with staged })
  | guest (g g' : γ) : Steady (guest g) (guest g')

/-- Every member is steady to itself. -/
@[refl]
theorem Steady.refl (t : Member γ) : t.Steady t := by
  cases t with
  | memory b => exact .memory b
  | durable b => exact .durable b
  | tail t => exact .tail t t.staged
  | guest g => exact .guest g g

/-- Steady changes in a row are one; the rows a tail picked in between do not matter. -/
theorem Steady.trans {t u v : Member γ} (h : t.Steady u) (h' : u.Steady v) : t.Steady v := by
  cases h with
  | memory b => exact h'
  | durable b => exact h'
  | tail t staged =>
    cases h' with
    | tail _ staged' => exact .tail t staged'
  | guest g g' =>
    cases h' with
    | guest _ g'' => exact .guest g g''

/-- The same, member by member. -/
theorem forall₂_steady_trans {ts us vs : List (Member γ)} (h : List.Forall₂ Steady ts us)
    (h' : List.Forall₂ Steady us vs) : List.Forall₂ Steady ts vs := by
  induction h generalizing vs with
  | nil => exact h'
  | cons htu _ ih =>
    cases h' with
    | cons huv hrest => exact .cons (htu.trans huv) (ih hrest)

variable [Guest γ]

/-- Asked for what it needs, a member shows its readers nothing new. -/
theorem steady_need (committed : Round) (t : Member γ) (fx : Effects) :
    t.Steady (need committed (t, fx)).2.1 ∧
      (need committed (t, fx)).2.2.signals = fx.signals := by
  cases t with
  | memory b => exact ⟨.memory b, rfl⟩
  | durable b => exact ⟨.durable b, rfl⟩
  | tail t => exact ⟨.refl _, rfl⟩
  | guest g => exact ⟨.guest g _, rfl⟩

/-- Nor does it when it narrows a range. -/
theorem steady_refine (committed round : Round) (range : CommitRange) (t : Member γ)
    (fx : Effects) :
    t.Steady (refine committed round range (t, fx)).2.1 ∧
      (refine committed round range (t, fx)).2.2.signals = fx.signals := by
  cases t with
  | memory b => exact ⟨.memory b, rfl⟩
  | durable b => exact ⟨.durable b, rfl⟩
  | tail t => exact ⟨.refl _, rfl⟩
  | guest g => exact ⟨.guest g _, rfl⟩

/-- Getting ready for a cycle, a tail picks rows, which no reader sees. -/
theorem steady_prepare (t : Member γ) (fx : Effects) (k : Ticket) :
    t.Steady (prepare (t, fx, k)).2.1 ∧
      (prepare (t, fx, k)).2.2.1.signals = fx.signals := by
  cases t with
  | memory b => exact ⟨.memory b, rfl⟩
  | durable b => exact ⟨.durable b, rfl⟩
  | tail t =>
    cases h : t.stage k.range with
    | error stop => simp only [prepare, h]; exact ⟨.refl _, trivial⟩
    | ok t' =>
      obtain ⟨-, -, -, staged, -, -, -, rfl⟩ := Tail.stage_eq_ok_iff.mp h
      simp only [prepare, h]
      exact ⟨.tail t staged, trivial⟩
  | guest g => exact ⟨.guest g _, rfl⟩

/-- Writing changes the store and, of a tail, at most the rows that were picked. -/
theorem steady_write (t : Member γ) (fx : Effects) (k : Ticket) (s : Store) :
    t.Steady (write (t, fx, k, s)).2.1 ∧
      (write (t, fx, k, s)).2.2.1.signals = fx.signals := by
  cases t with
  | memory b => exact ⟨.memory b, rfl⟩
  | durable b => exact ⟨.durable b, rfl⟩
  | tail t =>
    rcases h : t.writeStaged k.range s with ⟨stop | pruned, s'⟩
    · simp only [write, h]; exact ⟨.refl _, trivial⟩
    · simp only [write, h]
      exact ⟨.refl _, Effects.signals_logIf fx _ _⟩
  | guest g => exact ⟨.guest g _, rfl⟩

/-- Hearing of a cycle that did not land is steady. -/
theorem steady_notice {n : Notice} (hlanded : n ≠ .landed) (hreleased : n ≠ .released)
    (k : Ticket) (t : Member γ) (fx : Effects) :
    t.Steady (notice n k (t, fx)).2.1 ∧ (notice n k (t, fx)).2.2.signals = fx.signals := by
  cases t with
  | memory b => exact ⟨.memory b, rfl⟩
  | durable b =>
    cases n with
    | released => exact absurd rfl hreleased
    | landed | outOfOrder | prepareFailed | writeFailed => exact ⟨.durable b, rfl⟩
  | tail t =>
    cases n with
    | landed => exact absurd rfl hlanded
    | released | outOfOrder => exact ⟨.refl _, rfl⟩
    | prepareFailed | writeFailed => exact ⟨.tail t [], Effects.signals_logIf fx _ _⟩
  | guest g => exact ⟨.guest g _, rfl⟩

variable [KeepsRange γ]

/-- Members hand on the range of a ticket when they get ready, if their guests do. -/
theorem range_prepare (t : Member γ) (fx : Effects) (k : Ticket) :
    (prepare (t, fx, k)).2.2.2.range = k.range := by
  cases t with
  | memory b => rfl
  | durable b => rfl
  | tail t => cases h : t.stage k.range <;> simp only [prepare, h]
  | guest g => exact KeepsRange.range_prepare g k

/-- Members hand on the range of a ticket when they write, if their guests do. -/
theorem range_write (t : Member γ) (fx : Effects) (k : Ticket) (s : Store) :
    (write (t, fx, k, s)).2.2.2.1.range = k.range := by
  cases t with
  | memory b => rfl
  | durable b => rfl
  | tail t =>
    rcases h : t.writeStaged k.range s with ⟨_ | _, _⟩ <;> simp only [write, h]
  | guest g => exact KeepsRange.range_write g k s

end Member

/-- A question that every member answers steadily is steady for the whole sweep. -/
theorem sweep_steady {κ ε : Type} {ask : Act ε (Member γ × κ) Unit} (board : κ → SignalBoard)
    (hask : ∀ t c, t.Steady (ask (t, c)).2.1 ∧ board (ask (t, c)).2.2 = board c)
    (trackers : List (Member γ)) (c : κ) :
    List.Forall₂ Member.Steady trackers (sweep ask trackers c).2.1 ∧
      board (sweep ask trackers c).2.2 = board c :=
  sweep_forall₂ (I := fun c' => board c' = board c) Member.Steady.refl
    (fun t c' hc => ⟨(hask t c').1, (hask t c').2.trans hc⟩) trackers rfl

namespace Pipeline

/-- From `p` to `q` nothing changed that readers see: the database, the durable round and the
signals are what they were, and so is every tracker but for picked rows and guests. -/
structure Steady (p q : Pipeline (Member γ)) : Prop where
  store : q.store = p.store
  durable : q.durable = p.durable
  loaded : q.loaded = p.loaded
  signals : q.effects.signals = p.effects.signals
  trackers : List.Forall₂ Member.Steady p.trackers q.trackers

namespace Steady

variable {p q r : Pipeline (Member γ)}

@[refl]
theorem refl (p : Pipeline (Member γ)) : p.Steady p :=
  ⟨rfl, rfl, rfl, rfl, List.forall₂_same.mpr fun t _ => .refl t⟩

/-- Steady changes in a row are one. -/
theorem trans (h : p.Steady q) (h' : q.Steady r) : p.Steady r where
  store := h'.store.trans h.store
  durable := h'.durable.trans h.durable
  loaded := h'.loaded.trans h.loaded
  signals := h'.signals.trans h.signals
  trackers := Member.forall₂_steady_trans h.trackers h'.trackers

/-- Another store on both sides makes no difference, as in the middle of a transaction. -/
theorem setStore (h : p.Steady q) (store : Store) :
    ({ p with store } : Pipeline (Member γ)).Steady { q with store } :=
  ⟨rfl, h.durable, h.loaded, h.signals, h.trackers⟩

/-- What steady changes keep of one tracker they keep of all. -/
theorem forall_trackers {G : Member γ → Prop} (h : p.Steady q)
    (hG : ∀ {t u}, t.Steady u → G t → G u) (hp : ∀ t ∈ p.trackers, G t) :
    ∀ t ∈ q.trackers, G t := by
  have hsteady := h.trackers
  generalize p.trackers = ts at hp hsteady
  generalize q.trackers = us at hsteady
  induction hsteady with
  | nil => exact hp
  | cons htu _ ih =>
    obtain ⟨ht, hrest⟩ := List.forall_mem_cons.mp hp
    exact List.forall_mem_cons.mpr ⟨hG htu ht, ih hrest⟩

end Steady

variable {p : Pipeline (Member γ)}

/-- Readers do not see the log. -/
theorem steady_log (e : Event) : p.Steady (p.log e) :=
  ⟨rfl, rfl, rfl, rfl, List.forall₂_same.mpr fun t _ => .refl t⟩

/-- Readers do not see the mark. -/
theorem steady_clearMark : p.Steady p.clearMark :=
  ⟨rfl, rfl, rfl, rfl, List.forall₂_same.mpr fun t _ => .refl t⟩

/-- Readers do not see which round was reported. -/
theorem steady_remember (round : Round) : p.Steady (p.remember round) :=
  ⟨rfl, rfl, rfl, rfl, List.forall₂_same.mpr fun t _ => .refl t⟩

/-- Readers do not see whether the queue takes tickets. -/
theorem steady_dropIntake : p.Steady p.dropIntake :=
  ⟨rfl, rfl, rfl, rfl, List.forall₂_same.mpr fun t _ => .refl t⟩

/-- A worker that starts changes nothing for readers. -/
theorem steady_startWorker {q : Pipeline (Member γ)} (h : p.startWorker = .ok q) :
    p.Steady q := by
  unfold startWorker at h
  split at h <;> cases h
  exact ⟨rfl, rfl, rfl, rfl, List.forall₂_same.mpr fun t _ => .refl t⟩

/-- A ticket that is taken out of the queue changes nothing for readers. -/
theorem steady_takeTicket {k : Ticket} {q : Pipeline (Member γ)}
    (h : p.takeTicket = some (k, q)) : p.Steady q := by
  unfold takeTicket at h
  split at h <;> cases h
  exact ⟨rfl, rfl, rfl, rfl, List.forall₂_same.mpr fun t _ => .refl t⟩

/-- A ticket that is put into the queue changes nothing for readers. -/
theorem steady_enqueue {k : Ticket} {q : Pipeline (Member γ)} (h : p.enqueue k = .ok q) :
    p.Steady q := by
  unfold enqueue at h
  split at h
  · cases h
  all_goals
    split at h <;> cases h
    exact ⟨rfl, rfl, rfl, rfl, List.forall₂_same.mpr fun t _ => .refl t⟩

/-- A question is steady if it is for each member and fires no signal. -/
theorem steady_ask {ε : Type} {a : Act ε (Member γ × Effects) Unit}
    (h : ∀ t fx, t.Steady (a (t, fx)).2.1 ∧
      (a (t, fx)).2.2.signals = fx.signals) :
    p.Steady (p.ask a).2 := by
  obtain ⟨htrackers, hsignals⟩ := sweep_steady Effects.signals h p.trackers p.effects
  exact ⟨rfl, rfl, rfl, hsignals, htrackers⟩

/-- The end of a negotiation decides on mark and ticket only. -/
theorem steady_conclude (committed : Round) (range : CommitRange) :
    p.Steady (p.conclude committed range).2 := by
  unfold conclude
  split
  · exact steady_clearMark
  · split
    · exact .refl p
    · exact steady_log _

/-- A ticket on its way into the queue may be refused, which takes the mark off. -/
theorem steady_dispatch (k : Ticket) : p.Steady (p.dispatch k) := by
  unfold dispatch
  split
  · next h => exact steady_enqueue h
  · exact (steady_log _).trans steady_clearMark

variable [Guest γ]

/-- Only the notices of a landed cycle and of released trackers fire signals. -/
theorem steady_tell {n : Notice} (hlanded : n ≠ .landed) (hreleased : n ≠ .released)
    (k : Ticket) : p.Steady (p.tell n k).2 :=
  steady_ask (Member.steady_notice hlanded hreleased k)

/-! ## Negotiations -/

/-- One step of the question what is needed, with the needs found so far beside the effects. -/
theorem steady_needOne (committed : Round) (t : Member γ) (c : Effects × Need) :
    t.Steady (needOne committed (t, c)).2.1 ∧
      (needOne committed (t, c)).2.2.1.signals = c.1.signals := by
  obtain ⟨fx, joint⟩ := c
  have hneed : t.Steady (Tracker.need committed (t, fx)).2.1 ∧
      (Tracker.need committed (t, fx)).2.2.signals = fx.signals :=
    Member.steady_need committed t fx
  rcases h : Tracker.need committed (t, fx) with ⟨_ | _, t', fx'⟩ <;>
    rw [h] at hneed <;> simp only [needOne, h] <;> exact hneed

/-- All trackers are asked for their needs. -/
theorem steady_needAll (committed : Round) : p.Steady (p.needAll committed).2 := by
  obtain ⟨htrackers, hsignals⟩ := sweep_steady (fun c : Effects × Need => c.1.signals)
    (steady_needOne committed) p.trackers (p.effects, ⟨committed, 0⟩)
  exact ⟨rfl, rfl, rfl, hsignals, htrackers⟩

/-- One step of the narrowing, with the range so far beside the effects. -/
theorem steady_refineOne (committed durable : Round) (t : Member γ) (c : Effects × CommitRange) :
    t.Steady (refineOne committed durable (t, c)).2.1 ∧
      (refineOne committed durable (t, c)).2.2.1.signals = c.1.signals := by
  obtain ⟨fx, range⟩ := c
  have hrefine : t.Steady (Tracker.refine committed durable range (t, fx)).2.1 ∧
      (Tracker.refine committed durable range (t, fx)).2.2.signals = fx.signals :=
    Member.steady_refine committed durable range t fx
  rcases h : Tracker.refine committed durable range (t, fx) with ⟨_ | _ | _, t', fx'⟩ <;>
    rw [h] at hrefine <;> simp only [refineOne, h] <;> exact hrefine

/-- All trackers narrow a range. -/
theorem steady_refineAll (committed : Round) (range : CommitRange) :
    p.Steady (p.refineAll committed range).2 := by
  obtain ⟨htrackers, hsignals⟩ := sweep_steady (fun c : Effects × CommitRange => c.1.signals)
    (steady_refineOne committed p.durable) p.trackers (p.effects, range)
  exact ⟨rfl, rfl, rfl, hsignals, htrackers⟩

/-- A negotiation shows its readers nothing, whatever it comes to. -/
theorem steady_negotiate (committed : Round) (lookback : UInt64) :
    p.Steady (p.negotiate committed lookback).2 := by
  have hrefine := steady_refineAll (p := p) committed (p.propose committed lookback)
  unfold negotiate
  simp only
  split
  · exact steady_clearMark
  · rcases h : p.refineAll committed (p.propose committed lookback) with
      ⟨(tracker | f) | range, q⟩ <;> rw [h] at hrefine
    · exact hrefine.trans ((steady_log _).trans steady_clearMark)
    · exact hrefine
    · exact hrefine.trans (steady_conclude _ _)

/-- Nor does one that a caller asked for, a fault included. -/
theorem steady_schedule (committed : Round) (lookback : UInt64) :
    p.Steady (p.schedule committed lookback).2 := by
  unfold schedule claimMark
  by_cases hmark : p.inFlight
  · rw [if_pos hmark]
    exact steady_log _
  · rw [if_neg hmark]
    have hmarked : p.Steady { p with inFlight := true } :=
      ⟨rfl, rfl, rfl, rfl, List.forall₂_same.mpr fun t _ => .refl t⟩
    exact hmarked.trans (steady_negotiate _ _)

/-- What holds once the trackers were asked what they need, and is kept by negotiations and by what
is sent to the worker, holds after a report, whoever stops on the way. -/
theorem report_preserves {τ : Type} [Tracker τ] {I : Pipeline τ → Prop} {p : Pipeline τ}
    {round : Round} (hneed : I ((p.remember round).needAll round).2)
    (hschedule : ∀ q lookback, I q → I (q.schedule round lookback).2)
    (hdispatch : ∀ q k, I q → I (q.dispatch k)) : I (p.report round).2 := by
  unfold report
  rcases h : (p.remember round).needAll round with ⟨f | need, q⟩ <;> rw [h] at hneed
  · exact hneed
  · have hscheduled := hschedule q need.lookback hneed
    rcases h' : q.schedule round need.lookback with ⟨f | _ | k, q'⟩ <;>
      rw [h'] at hscheduled <;> simp only [h']
    · exact hscheduled
    · exact hscheduled
    · exact hdispatch q' k hscheduled

/-- A report is steady, whatever comes of it. -/
theorem steady_report (round : Round) : p.Steady (p.report round).2 :=
  report_preserves (I := fun q => p.Steady q) ((steady_remember round).trans (steady_needAll round))
    (fun _ lookback h => h.trans (steady_schedule round lookback))
    fun _ k h => h.trans (steady_dispatch k)

/-- A worker that completes a cycle gives the mark back. If a higher round was reported meanwhile,
it then reports that round once more, and is cut short if the report is. -/
theorem complete_cases {τ : Type} [Tracker τ] (handled : Round) (p : Pipeline τ) :
    (¬handled < p.reported ∧ p.complete handled = (.ok (), p.clearMark)) ∨
      (handled < p.reported ∧ ∃ result q,
        (p.clearMark.log (.followUp handled p.reported)).report p.reported = (result, q) ∧
          p.complete handled = (result.map fun _ => (), q)) := by
  by_cases hless : handled < p.reported
  · have hclear : handled < p.clearMark.reported := hless
    rcases hreport : (p.clearMark.log (.followUp handled p.clearMark.reported)).report
      p.clearMark.reported with ⟨f | floor, q⟩
    · exact .inr ⟨hless, .error f, q, hreport, by simp only [complete, if_pos hclear, hreport]; rfl⟩
    · exact .inr ⟨hless, .ok floor, q, hreport,
        by simp only [complete, if_pos hclear, hreport]; rfl⟩
  · exact .inl ⟨hless, if_neg hless⟩

/-- The worker's look for more to do is steady, as it is a negotiation at most. -/
theorem steady_complete (handled : Round) : p.Steady (p.complete handled).2 := by
  obtain ⟨-, heq⟩ | ⟨-, result, q, hreport, heq⟩ := complete_cases handled p <;> rw [heq]
  · exact steady_clearMark
  · have hsteady := ((steady_clearMark (p := p)).trans
      (steady_log (.followUp handled p.reported))).trans (steady_report p.reported)
    rw [hreport] at hsteady
    exact hsteady

/-! ## Cycles up to the end of their transaction -/

/-- All trackers get ready for a ticket. -/
theorem steady_prepareAll (k : Ticket) : p.Steady (p.prepareAll k).2.2 := by
  obtain ⟨htrackers, hsignals⟩ :=
    sweep_steady (fun c : Effects × Ticket => c.1.signals)
      (fun t c => Member.steady_prepare t c.1 c.2) p.trackers (p.effects, k)
  exact ⟨rfl, rfl, rfl, hsignals, htrackers⟩

/-- The range of a ticket is the same after all trackers got ready for it. -/
theorem range_prepareAll [KeepsRange γ] (k : Ticket) :
    (p.prepareAll k).2.1.range = k.range :=
  (sweep_forall (G := fun _ => True) (I := fun c : Effects × Ticket => c.2.range = k.range)
    (fun t c _ hc => ⟨trivial, (Member.range_prepare t c.1 c.2).trans hc⟩)
    p.trackers (fun _ _ => trivial) rfl).2

end Pipeline

end CommitPipeline
