import CommitPipeline.Proofs.FailedLoad
import CommitPipeline.Proofs.FollowUps
import CommitPipeline.Proofs.HeldBack
import CommitPipeline.Proofs.MissingBlocks

/-!
# Below the last round

Rounds are counted in words, and much of what a pipeline computes lies above the rounds it is given:
the round behind a block that is replayed, the end of a range, the window behind that end. Over the
library's own trackers none of it leaves the word as long as ledgers and reports stay below the last
round there is. Ranges end at a round that was reported or below it, so the round behind one is
always a round. Nor does a bulletin fall back. What may still cut a cycle short is a range for whose
rows there is no room.

The module introduces:

* `Round.BelowLast`, `Ticket.BelowLast`, `Deed.BelowLast` — what is asked of a run;
* `Deed.CutShort` — the fault that a call of a caller or of the worker ends with;
* `Pipeline.BelowLast`, `Custody.BelowLast` — what every such run keeps;
* `Deed.fault_of_belowLast` — one deed;
* `fault_below_last` — whole runs.
-/

namespace CommitPipeline

instance : TakesBlocks Empty := ⟨fun _ _ => nofun⟩

instance : Answers Empty where
  prepare_ne_fault := nofun
  write_ne_fault := nofun

/-- A round that is not the last one. -/
def Round.BelowLast (r : Round) : Prop := r.toNat + 1 < Round.limit

instance (r : Round) : Decidable r.BelowLast := inferInstanceAs (Decidable (_ < _))

theorem Round.BelowLast.mono {r s : Round} (h : s.BelowLast) (hle : r ≤ s) : r.BelowLast :=
  Nat.lt_of_le_of_lt (Nat.succ_le_succ hle) h

/-- A ticket whose range ends below the last round. -/
def Ticket.BelowLast (k : Ticket) : Prop := ∃ newBase, k.newBase = .ok newBase ∧ newBase.BelowLast

/-- Over a range that ends below the last round only room for the rows may be missing. -/
theorem Ticket.BelowLast.rows_of_cutsShort {k : Ticket} {f : Fault} (hk : k.BelowLast)
    (h : Tail.CutsShort k.range f) : f = .tooManyRows ∧ Tail.maxStaged < k.range.length := by
  cases h with
  | rows hmany => exact ⟨rfl, hmany⟩
  | rounds hhigh =>
    obtain ⟨newBase, hnew, hbelow⟩ := hk
    have hreached := Round.plus_eq_ok_iff.mp hnew
    rw [hreached] at hhigh
    exact absurd hbelow (Nat.not_lt.mpr hhigh)

namespace Pipeline

variable {p q : Pipeline Own} {round committed : Round} {k : Ticket}

/-! ## Loads -/

/-- No tracker of the library is cut short in starting at a store below the last round. -/
theorem ask_load_ne_fault (ledger : LedgerView) {s : Store} (hstored : s.round.BelowLast)
    (p : Pipeline Own) (f : Fault) :
    (p.ask (Tracker.load ledger s s.round)).1 ≠ .error (.fault f) := by
  intro h
  refine sweep_error_of_forall (E := fun stop => stop ≠ .fault f) (I := fun _ => True) ?_
    p.trackers trivial _ h rfl
  intro t fx _
  refine ⟨?_, trivial⟩
  rintro _ hstop rfl
  rcases Member.load_own_cases ledger s t fx with
    ⟨t', fx', heq, -, -⟩ | ⟨u, stop, -, hreload, heq⟩ <;> rw [heq] at hstop
  · cases hstop
  · -- The window of a tail ends at the stored round, and there is a round behind that.
    obtain rfl : stop = .fault f := Except.error.inj hstop
    obtain ⟨hlast, -⟩ | ⟨-, -, _, _, -, hread, -⟩ | ⟨-, _, _, -, -, hread⟩ :=
      u.reload_cases s s.round
    · exact Nat.ne_of_lt hstored hlast
    · cases hread.symm.trans hreload
    · cases hread.symm.trans hreload

/-- A load from a ledger below the last round is not cut short. -/
theorem load_ne_fault {ledger : LedgerView} (hlatest : ledger.latest.BelowLast) (p : Pipeline Own)
    (f : Fault) : (p.load ledger).1 ≠ .error (.fault f) := by
  unfold load
  simp only
  split
  · exact nofun
  next hahead =>
  have hbehind : p.store.round ≤ ledger.latest := Nat.le_of_not_lt hahead
  have hasked := ask_load_ne_fault ledger (hlatest.mono hbehind) p
  rcases h : p.ask (Tracker.load ledger p.store p.store.round) with ⟨stop | _, q⟩ <;>
    rw [h] at hasked <;> simp only
  · intro heq
    cases heq
    exact hasked f rfl
  -- The last block that may be replayed is that of the latest round, and there is one behind it.
  obtain ⟨first, hfirst, -, hroom⟩ := LedgerView.exists_first hlatest hbehind
  have hreplay := (replay_run ledger (I := fun _ _ => True) (fun _ _ _ _ => id) hroom q []
    trivial).1
  unfold replayAbove
  simp only [hfirst]
  rcases h' : q.replay ledger (ledger.latest.since p.store.round).toNat first with
    ⟨f' | handed, q'⟩ <;> rw [h'] at hreplay
  · cases hreplay
  · exact nofun

theorem close_ok (p : Pipeline Own) : p.close.1 = .ok () := by
  have hasked : (p.ask Tracker.close).1 = .ok () := by
    refine (sweep_of_forall_ok (G := fun _ => True) (H := fun _ => True) ?_ p.trackers p.effects
      fun _ _ => trivial).1
    rintro (b | b | u | e) fx -
    · exact ⟨rfl, trivial⟩
    · exact ⟨rfl, trivial⟩
    · exact ⟨rfl, trivial⟩
    · exact e.elim
  unfold close
  rcases h : p.ask Tracker.close with ⟨f | _, q⟩
  · rw [h] at hasked
    cases hasked
  · rfl

/-! ## Negotiations -/

/-- No negotiation is cut short, whatever round it is for. -/
theorem exists_schedule (committed : Round) (lookback : UInt64) (p : Pipeline Own) :
    ∃ given, (p.schedule committed lookback).1 = .ok given := by
  cases hmark : p.inFlight with
  | true => exact ⟨none, (refused_of_inFlight hmark).1 committed lookback⟩
  | false => exact ⟨_, schedule_own hmark⟩

/-- A ticket that was negotiated for a round below the last one ends there or before. -/
theorem belowLast_of_schedule {lookback : UInt64} (hcommitted : committed.BelowLast)
    (h : (p.schedule committed lookback).1 = .ok (some k)) : k.BelowLast := by
  obtain ⟨-, -, newBase, hnew, -, hend⟩ := end_of_schedule h
  exact ⟨newBase, hnew, hcommitted.mono (Nat.le_of_add_right_le hend)⟩

theorem exists_needAll (hround : round.BelowLast) (p : Pipeline Own) :
    ∃ need q, p.needAll round = (.ok need, q) := by
  have hasked : (sweep (needOne round) p.trackers (p.effects, (⟨round, 0⟩ : Need))).1 = .ok () := by
    refine (sweep_of_forall_ok (G := fun _ => True) (H := fun _ => True) ?_ p.trackers _
      fun _ _ => trivial).1
    rintro (b | b | u | e) ⟨fx, joint⟩ -
    · exact ⟨rfl, trivial⟩
    · exact ⟨rfl, trivial⟩
    · obtain ⟨floor, hfloor, -⟩ := u.exists_windowFloor hround
      refine ⟨?_, trivial⟩
      simp only [needOne, Tracker.need, Member.need, Tail.need, hfloor, Except.map]
    · exact e.elim
  unfold needAll
  rcases h : sweep (needOne round) p.trackers (p.effects, (⟨round, 0⟩ : Need)) with
    ⟨f | _, trackers, fx, need⟩ <;> rw [h] at hasked
  · cases hasked
  · exact ⟨need, _, rfl⟩

/-- No report of a round below the last one is cut short. -/
theorem exists_report (hround : round.BelowLast) (p : Pipeline Own) :
    ∃ floor, (p.report round).1 = .ok floor := by
  obtain ⟨need, q, hneed⟩ := exists_needAll hround (p.remember round)
  obtain ⟨given, hgiven⟩ := exists_schedule round need.lookback q
  unfold report
  simp only [hneed]
  rcases h : q.schedule round need.lookback with ⟨f | _ | k, q'⟩ <;> rw [h] at hgiven
  · cases hgiven
  · exact ⟨need.floor, rfl⟩
  · exact ⟨need.floor, rfl⟩

/-- No worker that completes a cycle is cut short, if the highest reported round is below the last
one. -/
theorem complete_ok (hp : p.reported.BelowLast) (handled : Round) :
    (p.complete handled).1 = .ok () := by
  obtain ⟨-, heq⟩ | ⟨-, result, q, hreport, heq⟩ := complete_cases handled p <;> rw [heq]
  obtain ⟨floor, hfloor⟩ := exists_report hp (p.clearMark.log (.followUp handled p.reported))
  rw [hreport] at hfloor
  obtain rfl : result = .ok floor := hfloor
  rfl

/-! ## What a run keeps -/

/-- What a pipeline keeps below the last round: durable bulletins are not ahead of the store, no
higher round was reported, and the ranges in the queue end below the last round. -/
structure BelowLast (p : Pipeline Own) : Prop where
  current : p.Current
  reported : p.reported.BelowLast
  queue : ∀ k ∈ p.queue, k.BelowLast

namespace BelowLast

/-- Without a further report and a further ticket only the bulletins have to be looked at. -/
theorem of_subset (hp : p.BelowLast) (hcurrent : q.Current) (hreported : q.reported = p.reported)
    (hqueue : q.queue ⊆ p.queue) : q.BelowLast :=
  ⟨hcurrent, hreported ▸ hp.reported, fun k hk => hp.queue k (hqueue hk)⟩

theorem of_undisturbed (hp : p.BelowLast) (hcurrent : q.Current) (h : p.Undisturbed q) :
    q.BelowLast :=
  hp.of_subset hcurrent h.reported fun _ hk => h.queue ▸ hk

/-- A report of a round below the last one adds that round and perhaps a ticket for it. -/
theorem of_report (hp : p.BelowLast) (hround : round.BelowLast) :
    (p.report round).2.BelowLast := by
  obtain ⟨hreported, hqueue⟩ := report_left round p
  refine ⟨hp.current.of_steady (steady_report round), ?_, ?_⟩
  · rw [hreported, Round.BelowLast, Round.toNat_max]
    have hbefore := hp.reported
    unfold Round.BelowLast at hbefore hround
    omega
  · obtain hsame | ⟨k, -, hput⟩ := hqueue
    · rw [hsame]
      exact hp.queue
    · obtain ⟨need, q, -, hscheduled⟩ := schedule_of_report hput
      rw [hput]
      exact List.forall_mem_append.mpr
        ⟨hp.queue, List.forall_mem_singleton.mpr (belowLast_of_schedule hround hscheduled)⟩

theorem of_commit (hp : p.BelowLast) (k : Ticket) (hcurrent : (p.commit k).2.2.Current) :
    (p.commit k).2.2.BelowLast := by
  have hcycle := (cycleEnd_runCycle k p).undisturbed
  obtain ⟨-, -, ⟨heq, -⟩ | heq⟩ := commit_eq k p <;> rw [heq] at hcurrent ⊢
  · exact hp.of_undisturbed hcurrent hcycle
  · exact hp.of_subset hcurrent hcycle.reported fun _ hk => hcycle.queue ▸ hk

/-- To complete a cycle is to report the highest round once more, if anything. -/
theorem of_complete (hp : p.BelowLast) (handled : Round) : (p.complete handled).2.BelowLast := by
  have hcleared : p.clearMark.BelowLast :=
    hp.of_subset (hp.current.of_steady steady_clearMark) rfl (List.Subset.refl _)
  obtain ⟨-, heq⟩ | ⟨-, result, q, hreport, heq⟩ := complete_cases handled p <;> rw [heq]
  · exact hcleared
  · have hlogged : (p.clearMark.log (.followUp handled p.reported)).BelowLast :=
      hcleared.of_undisturbed (hcleared.current.of_steady (steady_log _)) (asked_log _).undisturbed
    have hended := hlogged.of_report hp.reported
    rw [hreport] at hended
    exact hended

/-- Whoever waits is given a handle; the bulletin has announced what it had. -/
theorem waitAt (hp : p.BelowLast) (place : Nat) (r : Round) : (p.waitAt place r).BelowLast := by
  have hasked : p.Asked (p.waitAt place r) := by
    unfold Pipeline.waitAt
    split
    · exact .refl p
    · exact ⟨_, _, rfl⟩
  have hbase := hasked.sameBase
  refine hp.of_undisturbed ⟨fun hloaded => ?_, ?_⟩ hasked.undisturbed
  · rw [hbase.durable, hbase.store]
    exact hp.current.durable (hbase.loaded ▸ hloaded)
  · rw [hbase.store]
    refine forall_waitAt (fun t q board ht => ?_) place r hp.current.within
    cases t with
    | memory b | tail u => trivial
    | guest e => exact e.elim
    | durable b =>
      have hlatest : (b.wait board q).2.1.latest = b.latest := Bulletin.latest_wait rfl
      show (b.wait board q).2.1.latest ≤ _
      rw [hlatest]
      exact ht

end BelowLast

end Pipeline

/-! ## Deeds -/

namespace Deed

/-- What is asked of a deed: the ledger that is loaded, the round that is reported or negotiated for
and the range of a ticket that is run out of turn are below the last round. Of blocks nothing is
asked. -/
def BelowLast : Deed → Prop
  | load ledger => ledger.latest.BelowLast
  | report round => round.BelowLast
  | schedule committed _ => committed.BelowLast
  | commitOther k => k.BelowLast
  | newBlock .. | close | startWorker | commitHeld _ | take | work | complete | retire => True

/-- The fault that a deed is cut short with. To start a worker, to take a ticket and to stop are
never cut short. -/
inductive CutShort {τ : Type} [Tracker τ] : Deed → Custody τ → Fault → Prop
  | load {n : Custody τ} {ledger : LedgerView} {f : Fault}
      (hcut : (n.pipeline.load ledger).1 = .error (.fault f)) : CutShort (.load ledger) n f
  | newBlock {n : Custody τ} {block : Block} {delta : Delta} {f : Fault}
      (hcut : (n.pipeline.newBlock block delta).1 = .error f) :
      CutShort (.newBlock block delta) n f
  | close {n : Custody τ} {f : Fault} (hcut : n.pipeline.close.1 = .error f) : CutShort .close n f
  | report {n : Custody τ} {round : Round} {f : Fault}
      (hcut : (n.pipeline.report round).1 = .error f) : CutShort (.report round) n f
  | schedule {n : Custody τ} {committed : Round} {lookback : UInt64} {f : Fault}
      (hcut : (n.pipeline.schedule committed lookback).1 = .error f) :
      CutShort (.schedule committed lookback) n f
  | commitHeld {n : Custody τ} {place : Nat} {k : Ticket} {f : Fault}
      (hheld : n.held[place]? = some k) (hcut : (n.pipeline.commit k).1 = .error (.fault f)) :
      CutShort (.commitHeld place) n f
  | commitOther {n : Custody τ} {k : Ticket} {f : Fault}
      (hcut : (n.pipeline.commit k).1 = .error (.fault f)) : CutShort (.commitOther k) n f
  | work {n : Custody τ} {k : Ticket} {f : Fault} (hholding : n.hand = .holding k)
      (hcut : (n.pipeline.runWithRetries k).1 = .error (.fault f)) : CutShort .work n f
  | complete {n : Custody τ} {handled : Round} {f : Fault} (hran : n.hand = .ran handled)
      (hcut : (n.pipeline.complete handled).1 = .error f) : CutShort .complete n f

/-- The ticket whose cycle a deed runs, if it runs one. -/
def ticket? {τ : Type} : Deed → Custody τ → Option Ticket
  | commitHeld place, n => n.held[place]?
  | commitOther k, _ => some k
  | work, n =>
    match n.hand with
    | .holding k => some k
    | .free | .ran _ => none
  | _, _ => none

end Deed

namespace Custody

/-- What is kept below the last round, with everybody who may have a ticket. -/
structure BelowLast (n : Custody Own) : Prop where
  pipeline : n.pipeline.BelowLast
  hand : ∀ k, n.hand = .holding k → k.BelowLast
  held : ∀ k ∈ n.held, k.BelowLast

/-- What may happen below the last round: a deed, or a wait for any round at any bulletin. -/
inductive StepBelow : Custody Own → Custody Own → Prop
  | deed (n : Custody Own) {d : Deed} (hd : d.BelowLast) : StepBelow n (d.run n)
  | wait (n : Custody Own) (place : Nat) (r : Round) :
      StepBelow n { n with pipeline := n.pipeline.waitAt place r }

end Custody

namespace Deed

variable {γ : Type} [Guest γ] [KeepsRange γ]

/-- Whatever is done, no durable bulletin gets ahead of the store. -/
theorem current_run (d : Deed) {n : Custody (Member γ)} (hn : n.pipeline.Current) :
    (d.run n).pipeline.Current := by
  cases d with
  | load ledger => exact ((Operation.load ledger).advances_run hn).current
  | newBlock block delta => exact ((Operation.newBlock block delta).advances_run hn).current
  | close => exact (Operation.close.advances_run hn).current
  | startWorker => exact (Request.startWorker.advances_run hn).current
  | report round => exact ((Request.report round).advances_run hn).current
  | schedule committed lookback =>
    exact ((Request.schedule committed lookback).advances_run hn).current
  -- A caller runs a cycle only of a ticket that it has.
  | commitHeld place =>
    rw [run]
    split
    · exact hn
    · next k _ => exact ((Request.commit k).advances_run hn).current
  | commitOther k => exact ((Request.commit k).advances_run hn).current
  | take =>
    rw [run]
    split
    · next htake => exact hn.of_steady (Pipeline.steady_takeTicket htake)
    · exact hn
  | work =>
    rw [run]
    split
    · next k _ => exact ((Request.work k).advances_run hn).current
    · exact hn
    · exact hn
  | complete =>
    rw [run]
    split
    · next handled _ =>
      -- The worker that is cut short loses its queue, of which nothing is said.
      have hcurrent := ((Request.complete handled).advances_run hn).current
      rw [Request.run] at hcurrent
      rcases h : n.pipeline.complete handled with ⟨f | _, q⟩ <;> rw [h] at hcurrent <;>
        exact hcurrent
    · exact hn
    · exact hn
  | retire =>
    rw [run]
    split
    · exact (Request.retire.advances_run hn).current
    · exact hn

variable {d : Deed} {n : Custody Own}

/-- A deed below the last round keeps everything there. -/
theorem belowLast_run (hd : d.BelowLast) (hn : n.BelowLast) : (d.run n).BelowLast := by
  have hcurrent := d.current_run hn.pipeline.current
  cases d with
  | load ledger =>
    exact ⟨hn.pipeline.of_undisturbed hcurrent (Pipeline.undisturbed_load _ _), hn.hand, hn.held⟩
  | newBlock block delta =>
    exact ⟨hn.pipeline.of_undisturbed hcurrent (Pipeline.asked_newBlock _ _).undisturbed, hn.hand,
      hn.held⟩
  | close =>
    exact ⟨hn.pipeline.of_undisturbed hcurrent (Pipeline.asked_close _).undisturbed, hn.hand,
      hn.held⟩
  | startWorker =>
    rw [run] at hcurrent ⊢
    obtain heq | ⟨-, heq⟩ := Pipeline.run_startWorker n.pipeline <;> rw [heq] at hcurrent ⊢
    · exact hn
    · exact ⟨hn.pipeline.of_subset hcurrent rfl (List.Subset.refl _), hn.hand, hn.held⟩
  | report round => exact ⟨hn.pipeline.of_report hd, hn.hand, hn.held⟩
  | schedule committed lookback =>
    obtain ⟨inFlight, hasked⟩ := Pipeline.schedule_frame (p := n.pipeline) committed lookback
    refine ⟨hn.pipeline.of_subset hcurrent hasked.undisturbed.reported
      fun _ hk => hasked.undisturbed.queue ▸ hk, hn.hand, ?_⟩
    -- The ticket that the caller is given was negotiated for a round below the last one.
    refine List.forall_mem_append.mpr ⟨hn.held, fun k hk => ?_⟩
    cases hgiven : (n.pipeline.schedule committed lookback).1 with
    | error f =>
      rw [hgiven] at hk
      cases hk
    | ok given =>
      rw [hgiven] at hk
      obtain rfl : given = some k := Option.mem_toList.mp hk
      exact Pipeline.belowLast_of_schedule hd hgiven
  | commitHeld place =>
    rw [run] at hcurrent ⊢
    split
    · exact hn
    · next k hheld =>
      rw [hheld] at hcurrent
      exact ⟨hn.pipeline.of_commit k hcurrent, hn.hand,
        fun k hk => hn.held k (List.mem_of_mem_eraseIdx hk)⟩
  | commitOther k => exact ⟨hn.pipeline.of_commit k hcurrent, hn.hand, hn.held⟩
  | take =>
    rw [run] at hcurrent ⊢
    split
    · next k q hfree htake =>
      rw [hfree, htake] at hcurrent
      obtain ⟨-, rest, hqueue, rfl⟩ := Pipeline.takeTicket_eq_some htake
      have hrest : rest ⊆ n.pipeline.queue := hqueue ▸ List.subset_cons_self k rest
      refine ⟨hn.pipeline.of_subset hcurrent rfl hrest, ?_, hn.held⟩
      intro k' hk'
      obtain rfl := Hand.holding.inj hk'
      exact hn.pipeline.queue k (hqueue ▸ List.mem_cons_self)
    · exact hn
  | work =>
    rw [run] at hcurrent ⊢
    split
    · next k hholding =>
      rw [hholding] at hcurrent
      exact ⟨hn.pipeline.of_undisturbed hcurrent (Pipeline.undisturbed_work k _), by simp, hn.held⟩
    · exact hn
    · exact hn
  | complete =>
    rw [run]
    split
    · next handled hran =>
      have hended := hn.pipeline.of_complete handled
      rcases h : n.pipeline.complete handled with ⟨f | _, q⟩ <;> rw [h] at hended
      -- A worker that is cut short takes the queue down with it.
      · exact ⟨hended.of_subset (hended.current.of_steady Pipeline.steady_dropIntake) rfl
          (List.nil_subset _), by simp, hn.held⟩
      · exact ⟨hended, by simp, hn.held⟩
    · exact hn
    · exact hn
  | retire =>
    rw [run] at hcurrent ⊢
    split
    · next hfree hworking =>
      rw [hfree, hworking] at hcurrent
      exact ⟨hn.pipeline.of_subset hcurrent rfl (List.nil_subset _), hn.hand, hn.held⟩
    · exact hn

/-- Below the last round only a cycle is ever cut short, and only where there is no room for the
rows of its range. -/
theorem fault_of_belowLast {f : Fault} (hd : d.BelowLast) (hn : n.BelowLast) (h : d.CutShort n f) :
    f = .tooManyRows ∧ ∃ k, d.ticket? n = some k ∧ Tail.maxStaged < k.range.length := by
  have hcurrent := hn.pipeline.current
  cases h with
  | load hcut => exact absurd hcut (Pipeline.load_ne_fault hd _ f)
  | newBlock hcut => cases hcut.symm.trans (Pipeline.newBlock_ok _ _ n.pipeline)
  | close hcut => cases hcut.symm.trans (Pipeline.close_ok n.pipeline)
  | report hcut =>
    obtain ⟨floor, hok⟩ := Pipeline.exists_report hd n.pipeline
    cases hcut.symm.trans hok
  | @schedule _ committed lookback _ hcut =>
    obtain ⟨given, hok⟩ := Pipeline.exists_schedule committed lookback n.pipeline
    cases hcut.symm.trans hok
  | @complete _ handled _ hran hcut =>
    cases hcut.symm.trans (Pipeline.complete_ok hn.pipeline.reported handled)
  -- Every ticket that is run ends below the last round: it was negotiated for there, or it is one
  -- of which that is asked.
  | @commitHeld _ place k _ hheld hcut =>
    have hk := hn.held k (List.mem_of_getElem? hheld)
    obtain ⟨hfault, hmany⟩ := hk.rows_of_cutsShort (Pipeline.fault_of_commit hcurrent hcut)
    exact ⟨hfault, k, hheld, hmany⟩
  | @commitOther _ k _ hcut =>
    have hk : k.BelowLast := hd
    obtain ⟨hfault, hmany⟩ := hk.rows_of_cutsShort (Pipeline.fault_of_commit hcurrent hcut)
    exact ⟨hfault, k, rfl, hmany⟩
  | @work _ k _ hholding hcut =>
    have hk := hn.hand k hholding
    obtain ⟨hfault, hmany⟩ := hk.rows_of_cutsShort (Pipeline.fault_of_runWithRetries hcurrent hcut)
    exact ⟨hfault, k, by rw [ticket?, hholding], hmany⟩

end Deed

namespace Custody

variable {n m : Custody Own}

theorem BelowLast.of_step (hn : n.BelowLast) (h : n.StepBelow m) : m.BelowLast := by
  cases h with
  | deed hd => exact Deed.belowLast_run hd hn
  | wait place r => exact ⟨hn.pipeline.waitAt place r, hn.hand, hn.held⟩

theorem BelowLast.of_run (hn : n.BelowLast) (h : Relation.ReflTransGen StepBelow n m) :
    m.BelowLast := by
  induction h with
  | refl => exact hn
  | tail _ hstep ih => exact ih.of_step hstep

/-- Fresh trackers have announced nothing, and nobody holds a ticket yet. -/
theorem belowLast_opened {trackers : List Own} {config : Config} {store : Store} {effects : Effects}
    {p : Pipeline Own} (hfresh : ∀ t ∈ trackers, t.Fresh)
    (hopen : Pipeline.open? trackers config store effects = .ok p) : (opened p).BelowLast := by
  obtain rfl := Pipeline.open?_eq_ok hopen
  have hwithin : ∀ t ∈ trackers, t.Within store.round :=
    fun t ht => (World.fresh_sound (hfresh t ht) [] store.round 0).2
  have hzero : Round.zero.BelowLast := by decide
  exact ⟨⟨⟨nofun, hwithin⟩, hzero, nofun⟩, nofun, nofun⟩

end Custody

/-- Open a pipeline over any fresh trackers of the library, with any settings and over any store,
and let anything happen in any order: loads, blocks, reports, negotiations with any lookback, cycles
of callers and of the worker with their retries, and waits. As long as ledgers and the rounds that
are reported or negotiated for stay below the last round, the ranges that are negotiated end below
it. If no other tickets are run than such as negotiations give, then no sum and no difference leaves
the word, nor is any bulletin told of a round below its latest one: a cycle may be cut short where
there is no room for the rows of its range, and nothing else ever is. -/
theorem fault_below_last {trackers : List Own} {config : Config} {store : Store} {effects : Effects}
    {p : Pipeline Own} (hfresh : ∀ t ∈ trackers, t.Fresh)
    (hopen : Pipeline.open? trackers config store effects = .ok p) {n : Custody Own}
    (hrun : Relation.ReflTransGen Custody.StepBelow (.opened p) n) :
    (∀ d : Deed, d.BelowLast → ∀ f, d.CutShort n f →
        f = .tooManyRows ∧ ∃ k, d.ticket? n = some k ∧ Tail.maxStaged < k.range.length) ∧
      (∀ k, k ∈ n.pipeline.queue ∨ n.hand = .holding k ∨ k ∈ n.held → k.BelowLast) ∧
      ∀ committed lookback k, committed.BelowLast →
        (n.pipeline.schedule committed lookback).1 = .ok (some k) → k.BelowLast := by
  have hn := (Custody.belowLast_opened hfresh hopen).of_run hrun
  refine ⟨fun d hd f hcut => Deed.fault_of_belowLast hd hn hcut, ?_, ?_⟩
  · rintro k (hqueue | hholding | hheld)
    · exact hn.pipeline.queue k hqueue
    · exact hn.hand k hholding
    · exact hn.held k hheld
  · exact fun committed lookback k hcommitted => Pipeline.belowLast_of_schedule hcommitted

/-- The last round but one. -/
def lastButOne : Round := ⟨18446744073709551614⟩

/-- A ledger at the last round but one, of which it holds the block. -/
def topLedger : LedgerView where
  latest := lastButOne
  block r := if r = lastButOne then some (Chain.blockAt r .zero 0) else none

/-- The trackers of the library over a store that is one round behind that. -/
def topPipeline : Pipeline Own where
  trackers := [.memory {}, .durable {}, .tail (.keeping 2)]
  config := {}
  store := { round := ⟨18446744073709551613⟩ }

/-- The same once it was loaded and a ticket for the last round but one was given. -/
def topCustody : Custody Own :=
  Deed.runAll [.load topLedger, .schedule lastButOne 0] (.opened topPipeline)

/-- A cycle that ends at the last round but one is not cut short; it lands. -/
theorem fault_below_last_top :
    (∀ t ∈ topPipeline.trackers, t.Fresh) ∧
      Pipeline.open? topPipeline.trackers {} topPipeline.store {} = .ok topPipeline ∧
      (Deed.load topLedger).BelowLast ∧ (Deed.schedule lastButOne 0).BelowLast ∧
      ∃ k, topCustody.held = [k] ∧ k.BelowLast ∧
        (∀ f, ¬(Deed.commitHeld 0).CutShort topCustody f) ∧
        (topCustody.pipeline.commit k).1 = .ok (.landed lastButOne) := by
  have hfresh : ∀ t ∈ topPipeline.trackers, t.Fresh := by
    simp [topPipeline, Member.Fresh]
  have hopen : Pipeline.open? topPipeline.trackers {} topPipeline.store {} = .ok topPipeline := rfl
  have hround : lastButOne.BelowLast := by decide
  have hload : (Deed.load topLedger).BelowLast := hround
  have hschedule : (Deed.schedule lastButOne 0).BelowLast := hround
  have hrun : Relation.ReflTransGen Custody.StepBelow (.opened topPipeline) topCustody :=
    (Relation.ReflTransGen.single (.deed _ hload)).tail (.deed _ hschedule)
  obtain ⟨hfault, hbelow, -⟩ := fault_below_last hfresh hopen hrun
  have hheld : topCustody.held = [⟨⟨⟨18446744073709551613⟩, 1, 2⟩, lastButOne, false⟩] := rfl
  refine ⟨hfresh, hopen, hload, hschedule, _, hheld, ?_, fun f hcut => ?_, rfl⟩
  · exact hbelow _ (.inr (.inr (hheld ▸ List.mem_singleton_self _)))
  -- There is room for one row.
  · obtain ⟨-, k, hk, hmany⟩ := hfault (.commitHeld 0) trivial f hcut
    rw [Deed.ticket?, hheld] at hk
    cases hk
    exact absurd hmany (by decide)

/-- A report of the last round itself is cut short. -/
example : (topCustody.pipeline.report ⟨18446744073709551615⟩).1 = .error .addOverflow := rfl

end CommitPipeline
