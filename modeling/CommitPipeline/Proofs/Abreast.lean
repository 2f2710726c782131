import CommitPipeline.Proofs.SoleTail
import CommitPipeline.Proofs.Deliveries
import CommitPipeline.Proofs.DurableWaiters
import CommitPipeline.Proofs.Trimming

/-!
# Durable rounds were announced in memory

Nothing compares a durable bulletin with a memory bulletin. That the one never runs ahead of the
other comes from the tail: no range is written whose last round the tail has not taken in, a block
that the tail takes in is announced in memory by the time the blocks before and after it may come,
and a load puts memory at the latest round of the ledger and the tail at the rows of the store. So
there is a round at all times that memory has announced and the tail has not passed.

The module introduces:

* `TakesBlocks` — guests that are not cut short by a block;
* `Member.Spans`, `Pipeline.Abreast` — that round, seen from one tracker and from all of them;
* `Session.LoadsWell` — sessions in which every load ends well;
* `durable_le_memory` — durable bulletins are never ahead of memory bulletins.
-/

namespace CommitPipeline

variable {γ : Type}

/-- Guests that are not cut short when they take a block. -/
class TakesBlocks (γ : Type) [Guest γ] : Prop where
  /-- Whatever block they are handed, they answer. -/
  newBlock_ok : ∀ (block : Block) (delta : Delta) (g : γ), (Guest.newBlock block delta g).1 = .ok ()

instance : TakesBlocks Tame := ⟨fun _ _ _ => rfl⟩

instance : TakesBlocks Objector := ⟨fun _ _ _ => rfl⟩

namespace Member

/-- A memory bulletin has announced the rounds up to `m`, and a tail holds none above it. -/
def Spans (m : Round) : Member γ → Prop
  | memory b => m ≤ b.latest
  | tail u => ∀ r summary, u.entries.get? r = some summary → r ≤ m
  | durable _ | guest _ => True

variable {m : Round} {t u : Member γ}

/-- A steady change leaves bulletins and rows in memory as they were. -/
theorem Spans.of_steady (hsteady : t.Steady u) (h : t.Spans m) : u.Spans m := by
  cases hsteady with
  | memory b => exact h
  | durable b => trivial
  | tail t staged => exact h
  | guest g g' => trivial

variable [Guest γ]

/-- At a store that is not ahead of the ledger, everybody starts on both sides of the latest round
of the ledger. -/
theorem spans_load {ledger : LedgerView} {durableRound : Round}
    (hle : durableRound ≤ ledger.latest) (s : Store) (t : Member γ) (fx : Effects)
    (hok : (load ledger s durableRound (t, fx)).1 = .ok ()) :
    (load ledger s durableRound (t, fx)).2.1.Spans ledger.latest := by
  cases t with
  | memory b => exact Nat.le_refl _
  | durable b => trivial
  | tail u =>
    cases hreload : u.reload s durableRound with
    | error stop =>
      simp only [load, hreload] at hok
      cases hok
    | ok u' =>
      simp only [load, hreload]
      exact fun r summary hget => Nat.le_trans (Tail.le_of_reload hreload hget) hle
  | guest g => trivial

/-- A block that tails take in is announced by memory bulletins. -/
theorem spans_newBlock [TakesBlocks γ] (block : Block) (delta : Delta) (t : Member γ)
    (fx : Effects) (h : t.Spans m) :
    (newBlock block delta (t, fx)).1 = .ok () ∧
      (newBlock block delta (t, fx)).2.1.Spans (max m block.round) := by
  have hmax : ∀ r : Round, r ≤ m ∨ r ≤ block.round → r ≤ max m block.round := by
    intro r hr
    rw [Round.le_def, Round.toNat_max]
    simp only [Round.le_def] at hr
    omega
  cases t with
  | memory b =>
    -- A memory bulletin is behind the block and announces it, or it is ahead already.
    have hlatest : m ≤ b.latest := h
    rcases Bulletin.announceBlock_cases block b fx with ⟨hle, heq⟩ | ⟨hok, hannounced⟩
    · refine ⟨by simp only [newBlock, viaBulletin, heq], ?_⟩
      simp only [newBlock, viaBulletin, heq]
      show max m block.round ≤ b.latest
      rw [Round.le_def, Round.toNat_max]
      exact Nat.max_le.mpr ⟨hlatest, hle⟩
    · refine ⟨hok, ?_⟩
      show max m block.round ≤ (Bulletin.announceBlock block (b, fx)).2.1.latest
      rw [hannounced.latest, Round.le_def, Round.toNat_max]
      exact Nat.max_le.mpr ⟨Nat.le_trans hlatest hannounced.notBelow, Nat.le_refl _⟩
  | durable b => exact ⟨rfl, trivial⟩
  | tail u =>
    refine ⟨rfl, fun r summary hget => hmax r ?_⟩
    have hget : (u.entries.insert block.round (.ofBlock block)).get? r = some summary := hget
    rw [RoundTable.get?_insert] at hget
    split at hget
    · next hr => exact .inr (Nat.le_of_eq (congrArg Round.toNat hr))
    · exact .inl (h r summary hget)
  | guest g => exact ⟨TakesBlocks.newBlock_ok block delta g, trivial⟩

/-- Whatever is told of a cycle, memory bulletins stay and tails take nothing in. -/
theorem spans_notice (n : Notice) (k : Ticket) (t : Member γ) (fx : Effects) (h : t.Spans m) :
    (notice n k (t, fx)).2.1.Spans m := by
  by_cases hlanded : n = .landed
  · subst hlanded
    cases t with
    | memory b => exact h
    | durable b => trivial
    -- The tail drops what is below its window, and nothing else changes.
    | tail u =>
      cases hadvance : u.advance k.range with
      | error f =>
        simp only [notice, hadvance]
        exact h
      | ok u' =>
        simp only [notice, hadvance]
        obtain ⟨newBase, floor, -, -, rfl⟩ := Tail.advance_eq_ok_iff.mp hadvance
        intro r summary hget
        rw [RoundTable.get?_atLeast, Option.ite_none_right_eq_some] at hget
        exact h r summary hget.2
    | guest g => trivial
  · cases t with
    | memory b => exact h
    | durable b => cases n <;> trivial
    | tail u =>
      cases n with
      | landed => exact absurd rfl hlanded
      | released | outOfOrder | prepareFailed | writeFailed => exact h
    | guest g => trivial

/-- Closing announces nothing and brings no rows in. -/
theorem spans_close (t : Member γ) (fx : Effects) (h : t.Spans m) :
    (close (t, fx)).2.1.Spans m := by
  cases t with
  | memory b => exact h
  | durable b => trivial
  | tail u => exact nofun
  | guest g => trivial

end Member

namespace Pipeline

variable {p q : Pipeline (Member γ)} {k k' : Ticket} {newBase r : Round}

/-- There is a round from `r` on that memory has announced and no tail has passed. -/
def Abreast (r : Round) (p : Pipeline (Member γ)) : Prop :=
  ∃ m, r ≤ m ∧ ∀ t ∈ p.trackers, t.Spans m

/-- Some tracker is a tail. -/
def HasTail (p : Pipeline (Member γ)) : Prop := ∃ retain, .tail retain ∈ p.kinds

/-- A pipeline with a tail has it among its trackers. -/
theorem HasTail.exists_mem (h : p.HasTail) : ∃ u, .tail u ∈ p.trackers := by
  obtain ⟨retain, hmem⟩ := h
  obtain ⟨t, ht, hkind⟩ := List.mem_map.mp hmem
  cases t with
  | tail u => exact ⟨u, ht⟩
  | memory b => cases hkind
  | durable b => cases hkind
  | guest g => cases hkind

/-- What is steady keeps memory bulletins ahead of tails. -/
theorem Abreast.of_steady (hsteady : p.Steady q) (h : p.Abreast r) : q.Abreast r := by
  obtain ⟨m, hle, hspans⟩ := h
  exact ⟨m, hle, hsteady.forall_trackers (fun hsteady => .of_steady hsteady) hspans⟩

/-- With a memory bulletin there, the round it announced last bounds what is compared. -/
theorem Abreast.le_latest (h : p.Abreast r) {b : Bulletin} (hb : .memory b ∈ p.trackers) :
    r ≤ b.latest := by
  obtain ⟨m, hle, hspans⟩ := h
  exact Nat.le_trans hle (hspans _ hb)

variable [Guest γ]

/-- A block takes memory bulletins and tails on together. -/
theorem abreast_newBlock [TakesBlocks γ] (block : Block) (delta : Delta) (h : p.Abreast r) :
    (p.newBlock block delta).2.Abreast r := by
  obtain ⟨m, hle, hspans⟩ := h
  refine ⟨max m block.round, ?_, ?_⟩
  · rw [Round.le_def, Round.toNat_max]
    exact Nat.le_trans hle (Nat.le_max_left _ _)
  · exact (sweep_of_forall_ok (fun t fx ht => Member.spans_newBlock block delta t fx ht)
      p.trackers p.effects hspans).2

theorem abreast_close (h : p.Abreast r) : p.close.2.Abreast r := by
  obtain ⟨m, hle, hspans⟩ := h
  have hask := (ask_forall (I := fun _ => True) (a := Tracker.close)
    (fun t fx ht _ => ⟨Member.spans_close t fx ht, trivial⟩) hspans trivial).1
  rcases close_cases p with heq | heq <;> rw [heq] <;> exact ⟨m, hle, hask⟩

/-- A load that ends well starts memory at the latest round of the ledger, and what is replayed
then moves memory and tail together. -/
theorem abreast_load [TakesBlocks γ] {ledger : LedgerView} (h : p.load ledger = (.ok (), q)) :
    q.Abreast p.store.round := by
  obtain ⟨hbehind, p₁, p₂, replayed, hasked, hreplayed, rfl⟩ := steps_of_load h
  -- The round in between is the latest of the ledger at first, whatever is replayed below it.
  have hstart : p₁.Abreast p.store.round := by
    obtain rfl := congrArg Prod.snd hasked
    refine ⟨ledger.latest, hbehind, ?_⟩
    exact (sweep_forall_of_ok (G := fun _ => True) (I := fun _ => True)
      (fun t fx _ _ hok => ⟨Member.spans_load hbehind p.store t fx hok, trivial⟩) p.trackers
      (fun _ _ => trivial) trivial (congrArg Prod.fst hasked)).1
  have hreplay := replayAbove_preserves (I := fun q => q.Abreast p.store.round) (fun _ _ h => h)
    (fun _ block delta h => abreast_newBlock block delta h) ledger p.store.round hstart
  rw [hreplayed] at hreplay
  exact hreplay

variable [KeepsRange γ]

/-- The tail has taken in the last round of what is written, so memory has announced it. -/
theorem abreast_of_writes (hwrites : p.Writes k newBase k' q) (hcurrent : p.Current)
    (htail : p.HasTail) (h : p.Abreast p.store.round) : q.Abreast newBase := by
  obtain ⟨m, hle, hspans⟩ := h
  refine ⟨m, ?_, hwrites.steady.forall_trackers (fun hsteady => .of_steady hsteady) hspans⟩
  obtain ⟨u, hu⟩ := htail.exists_mem
  obtain ⟨k₁, p₁, hprepared, -, -⟩ := hwrites.phases
  obtain ⟨u', hstage, -⟩ := exists_stage_of_prepareAll (p := p.log _) hu hprepared
  obtain ⟨-, oldest, -, staged, holdest, -, hcollect, -⟩ := Tail.stage_eq_ok_iff.mp hstage
  obtain ⟨-, hrounds, hvalues⟩ := Tail.collect_spec hcollect
  have hsum := Round.plus_eq_ok_iff.mp hwrites.lands
  have hfirst := Round.next_eq_ok_iff.mp holdest
  -- A range without rounds ends where the database is already.
  by_cases hempty : k.range.length.toNat = 0
  · have hsame : newBase = p.store.round := by
      rw [← hcurrent.durable hwrites.loaded, ← hwrites.base]
      apply Round.ext_toNat
      omega
    exact hsame ▸ hle
  · have hpicked : newBase ∈ staged.map Prod.fst := (hrounds newBase).mpr (by omega)
    obtain ⟨⟨_, summary⟩, hmem, rfl⟩ := List.mem_map.mp hpicked
    exact hspans _ hu _ summary (hvalues _ summary hmem)

/-- A cycle that landed wrote only rounds that memory had announced. -/
theorem abreast_settleLanded (hwrites : p.Writes k newBase k' q) (hcurrent : p.Current)
    (htail : p.HasTail) (h : p.Abreast p.store.round) :
    (q.settleLanded newBase k').2.2.Abreast (q.settleLanded newBase k').2.2.store.round := by
  obtain ⟨m, hle, hspans⟩ := abreast_of_writes hwrites hcurrent htail h
  rw [(settleLanded_frame newBase k').1, hwrites.stored]
  exact ⟨m, hle, (settleLanded_forall (I := fun _ => True)
    (fun t fx ht _ => ⟨Member.spans_notice .landed _ t fx ht, trivial⟩)
    (fun t fx ht _ => ⟨Member.spans_notice .released _ t fx ht, trivial⟩) hspans trivial).1⟩

end Pipeline

/-- Of a loaded pipeline, what keeps durable bulletins behind memory bulletins. -/
structure Pipeline.Levelled (p : Pipeline (Member γ)) : Prop where
  current : p.Current
  tail : p.HasTail
  abreast : p.Abreast p.store.round

section Operations

variable [Guest γ] [KeepsRange γ] [TakesBlocks γ] {p : Pipeline (Member γ)}

/-- Blocks, requests and the closing of the trackers keep memory ahead, and so does a load that ends
well. -/
theorem Operation.levelled_run {operation : Operation} (hp : p.Levelled)
    (hload : ∀ ledger, operation = .load ledger → (p.load ledger).1 = .ok ()) :
    (operation.run p).Levelled := by
  -- Kinds and durable round are known; what is left is how far memory has announced.
  have hcurrent : (operation.run p).Current := (operation.advances_run hp.current).current
  have htail : (operation.run p).HasTail := by
    rw [Pipeline.HasTail, operation.kinds_run]
    exact hp.tail
  refine ⟨hcurrent, htail, ?_⟩
  cases operation with
  | load ledger =>
    have hok : p.load ledger = (.ok (), (p.load ledger).2) := Prod.ext (hload ledger rfl) rfl
    show (p.load ledger).2.Abreast (p.load ledger).2.store.round
    rw [(Pipeline.load_frame ledger p).1]
    exact Pipeline.abreast_load hok
  | newBlock block delta => exact Pipeline.abreast_newBlock block delta hp.abreast
  | close =>
    show p.close.2.Abreast p.close.2.store.round
    rw [(Pipeline.asked_close p).sameBase.store]
    exact Pipeline.abreast_close hp.abreast
  | request request =>
    refine (request.run_preserves (I := Pipeline.Levelled) ?_ ?_ hp).abreast
    · -- A request is steady but for the transactions of its cycles.
      rintro q q' hsteady hq
      refine ⟨hq.current.of_steady hsteady, ?_, ?_⟩
      · rw [Pipeline.HasTail, Pipeline.kinds_of_steady hsteady]
        exact hq.tail
      · rw [hsteady.store]
        exact hq.abreast.of_steady hsteady
    · rintro q k newBase k' q' hq hwrites
      refine ⟨Pipeline.current_settleLanded hwrites hq.current, ?_,
        Pipeline.abreast_settleLanded hwrites hq.current hq.tail hq.abreast⟩
      rw [Pipeline.HasTail, Pipeline.kinds_settleLanded, Pipeline.kinds_of_steady hwrites.steady]
      exact hq.tail

end Operations

/-! ## Sessions -/

namespace Pipeline

variable {p : Pipeline (Member γ)} {before after : List (Member γ)} {t t' : Member γ}
  {signals : SignalBoard}

/-- One tracker is replaced by one of its kind that spans the same rounds. -/
theorem Levelled.putBack (hp : p.Levelled) (htrackers : p.trackers = before ++ t :: after)
    (hkind : t'.kind = t.kind) (hwithin : t'.Within p.store.round)
    (hspans : ∀ m, t.Spans m → t'.Spans m) :
    (p.putBack (before ++ t' :: after) signals).Levelled := by
  refine ⟨⟨hp.current.durable, forall_replaced htrackers hp.current.within hwithin⟩, ?_, ?_⟩
  · obtain ⟨retain, hmem⟩ := hp.tail
    refine ⟨retain, ?_⟩
    rw [kinds, htrackers, List.map_append, List.map_cons] at hmem
    rw [kinds, Pipeline.putBack, List.map_append, List.map_cons, hkind]
    exact hmem
  · obtain ⟨m, hle, hall⟩ := hp.abreast
    have ht : t.Spans m := by
      refine hall t ?_
      rw [htrackers]
      exact List.mem_append_right _ List.mem_cons_self
    exact ⟨m, hle, forall_replaced htrackers hall (hspans m ht)⟩

end Pipeline

section Sessions

variable [Guest γ]

/-- What may happen in a session in which every load ends well. -/
inductive Session.LoadsWell : Session γ → Session γ → Prop
  | operate (s : Session γ) {operation : Operation}
      (hload : ∀ ledger, operation = .load ledger → (s.pipeline.load ledger).1 = .ok ()) :
      LoadsWell s ⟨operation.run s.pipeline, s.given⟩
  | waitDurable {s : Session γ} {before after : List (Member γ)} {b b' : Bulletin} {r : Round}
      {handle : Handle} {signals : SignalBoard}
      (htrackers : s.pipeline.trackers = before ++ .durable b :: after)
      (hwait : b.wait s.pipeline.effects.signals r = (handle, b', signals)) :
      LoadsWell s
        ⟨s.pipeline.putBack (before ++ .durable b' :: after) signals, (r, handle) :: s.given⟩
  | waitMemory {s : Session γ} {before after : List (Member γ)} {b b' : Bulletin} {r : Round}
      {handle : Handle} {signals : SignalBoard}
      (htrackers : s.pipeline.trackers = before ++ .memory b :: after)
      (hwait : b.wait s.pipeline.effects.signals r = (handle, b', signals)) :
      LoadsWell s ⟨s.pipeline.putBack (before ++ .memory b' :: after) signals, s.given⟩

theorem Session.LoadsWell.step {s s' : Session γ} (h : s.LoadsWell s') : s.Step s' := by
  cases h with
  | @operate operation hload => exact .operate s operation
  | waitDurable htrackers hwait => exact .waitDurable htrackers hwait
  | waitMemory htrackers hwait => exact .waitMemory htrackers hwait

variable [KeepsRange γ] [TakesBlocks γ]

/-- A session goes on with memory ahead as long as its loads end well. -/
theorem Session.LoadsWell.levelled {s s' : Session γ} (h : s.LoadsWell s')
    (hs : s.pipeline.Levelled) : s'.pipeline.Levelled := by
  cases h with
  | @operate operation hload => exact operation.levelled_run hs hload
  | waitDurable htrackers hwait =>
    refine hs.putBack htrackers rfl ?_ fun m _ => trivial
    have hwithin := hs.current.within _ (htrackers ▸ List.mem_append_right _ List.mem_cons_self)
    show _ ≤ _
    rw [Bulletin.latest_wait hwait]
    exact hwithin
  | waitMemory htrackers hwait =>
    refine hs.putBack htrackers rfl trivial fun m hm => ?_
    show m ≤ _
    rw [Bulletin.latest_wait hwait]
    exact hm

/-- From a pipeline that is level, and in which no handle lies, a session goes on so. -/
theorem Session.levelled_run {s s' : Session γ}
    (hrun : Relation.ReflTransGen Session.LoadsWell s s') (htruthful : s.pipeline.Truthful s.given)
    (hs : s.pipeline.Levelled) : s'.pipeline.Truthful s'.given ∧ s'.pipeline.Levelled := by
  induction hrun with
  | refl => exact ⟨htruthful, hs⟩
  | tail _ hstep ih => exact ⟨(World.truthful_session ih.1 hstep.step).1, hstep.levelled ih.2⟩

omit [KeepsRange γ] in
/-- With a tail among the trackers, a load that ends well makes the pipeline level. -/
theorem Pipeline.levelled_of_load {p q : Pipeline (Member γ)} {ledger : LedgerView}
    (hload : p.load ledger = (.ok (), q)) {u : Tail} (hu : .tail u ∈ p.trackers) :
    q.Levelled := by
  have hstore := (load_frame ledger p).1
  have hkinds := kinds_load ledger p
  rw [hload] at hstore hkinds
  refine ⟨(current_of_load hload).1, ⟨u.retain, ?_⟩, ?_⟩
  · rw [show q.kinds = p.kinds from hkinds]
    exact List.mem_map_of_mem hu
  · rw [show q.store = p.store from hstore]
    exact abreast_load hload

/-- In a session over any database, from a load that ended well on, let anything happen but a load
that fails: further loads, blocks of any rounds, reports of any rounds, waits, and cycles of any
tickets, over guests that may object and fail but are not cut short by a block and leave ranges
alone. With a tail among the trackers, no durable bulletin is ahead of a memory bulletin. So
whoever was let through for a round by a durable bulletin, however long ago, or would be now, is
answered at once by every memory bulletin. -/
theorem durable_le_memory {s : Session γ} (hs : (World.up s).Reachable) {ledger : LedgerView}
    {p : Pipeline (Member γ)} (hload : s.pipeline.load ledger = (.ok (), p)) {u : Tail}
    (hu : .tail u ∈ s.pipeline.trackers) {s' : Session γ}
    (hrun : Relation.ReflTransGen Session.LoadsWell ⟨p, s.given⟩ s') {b b' : Bulletin}
    (hb : .durable b ∈ s'.pipeline.trackers) (hb' : .memory b' ∈ s'.pipeline.trackers) :
    let board := s'.pipeline.effects.signals
    b.latest ≤ b'.latest ∧
      (∀ r, (b.wait board r).1.isReady (b.wait board r).2.2 → (b'.wait board r).1 = .ready) ∧
      ∀ r handle, (r, handle) ∈ s'.given → handle.isReady board →
        (b'.wait board r).1 = .ready := by
  intro board
  have hbegin : p.Truthful s.given := by
    have honward := Pipeline.onward_load ledger (World.truthful_of_reachable hs)
    rw [hload] at honward
    exact honward.truthful
  obtain ⟨htruthful, hlevelled⟩ :=
    Session.levelled_run hrun hbegin (Pipeline.levelled_of_load hload hu)
  -- Memory has announced all that is stored.
  have hstored : s'.pipeline.store.round ≤ b'.latest := hlevelled.abreast.le_latest hb'
  have hready : ∀ r, r ≤ s'.pipeline.store.round → (b'.wait board r).1 = .ready := by
    intro r hr
    have hannounced : r ≤ b'.latest := Nat.le_trans hr hstored
    rw [Bulletin.wait, if_pos hannounced]
  refine ⟨Nat.le_trans (hlevelled.current.within _ hb) hstored, fun r hnow => ?_, ?_⟩
  · -- A handle that is asked for now is one more handle that was given.
    obtain ⟨before, after, hsplit⟩ := List.append_of_mem hb
    have hwaited := Pipeline.truthful_waitDurable (r := r) htruthful hsplit rfl
    exact hready r (hwaited.board.ready_le r _ List.mem_cons_self hnow)
  · exact fun r handle hgiven hnow => hready r (htruthful.board.ready_le r handle hgiven hnow)

/-- Both bulletins and a tail behind an objector, over an empty database. -/
def mixed : Pipeline (Member Objector) :=
  { trackers := [.guest .objector, .durable {}, .memory {}, .tail (.keeping 1)]
    config := {}
    store := .empty }

/-- The pipeline once it is loaded from a ledger of two rounds of which no block is at hand, was
handed the first block late, and has run a ticket for it that nobody negotiated. -/
def mixedOnce : Pipeline (Member Objector) :=
  (Request.commit ⟨⟨.zero, 1, 0⟩, ⟨1⟩, false⟩).run
    ((mixed.load bareLedger).2.newBlock (emptyBlock ⟨1⟩) (.empty ⟨1⟩)).2

/-- The first round is durable then, and both rounds were announced in memory. -/
theorem durable_le_memory_once :
    ∃ b b', .durable b ∈ mixedOnce.trackers ∧ .memory b' ∈ mixedOnce.trackers ∧
      b.latest = ⟨1⟩ ∧ b.latest ≤ b'.latest := by
  have hfresh : ∀ t ∈ mixed.trackers, t.Fresh := by
    simp [mixed, Member.Fresh]
  have hreachable : (World.up ⟨mixed, []⟩).Reachable :=
    ⟨.empty, .single (@World.Step.start Objector _ ⟨.empty, {}⟩ [] _ {} [] mixed hfresh rfl)⟩
  have hblock := @Session.LoadsWell.operate Objector _ ⟨(mixed.load bareLedger).2, []⟩
    (.newBlock (emptyBlock ⟨1⟩) (.empty ⟨1⟩)) (by simp)
  have hcommit := @Session.LoadsWell.operate Objector _
    ⟨((mixed.load bareLedger).2.newBlock (emptyBlock ⟨1⟩) (.empty ⟨1⟩)).2, []⟩
    (.request (.commit ⟨⟨.zero, 1, 0⟩, ⟨1⟩, false⟩)) (by simp)
  refine ⟨{ latest := ⟨1⟩ }, { latest := ⟨2⟩ }, ?_, ?_, rfl, ?_⟩
  · exact .tail _ (.head _)
  · exact .tail _ (.tail _ (.head _))
  · exact (durable_le_memory hreachable (Prod.ext rfl rfl) (u := .keeping 1)
      (.tail _ (.tail _ (.tail _ (.head _)))) (.head hblock (.single hcommit))
      (.tail _ (.head _)) (.tail _ (.tail _ (.head _)))).1

end Sessions

end CommitPipeline
