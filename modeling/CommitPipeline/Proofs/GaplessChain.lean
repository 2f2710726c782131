import CommitPipeline.Proofs.HeaderChain
import CommitPipeline.Proofs.MissingBlocks

/-!
# A ledger of appended blocks has no gap

A ledger that makes its own blocks starts above a base round and appends one block at a time, each
at a time of its own. Until it comes to the last round there is, every call appends the block of the
next round, linked to the block before it; from then on every call is a fault that changes nothing.
So a pipeline whose store ends at the base round is handed all of the blocks when it loads.

The module introduces:

* `Pipeline.heard_load_of_goes` — a load that no tracker stops;
* `Chain.appendEach` — blocks appended one after the other, each at its own time;
* `LedgerView.Gapless` — the linked blocks of consecutive rounds above a base round;
* `Chain.Grown` — a chain and the blocks it has made;
* `Chain.Grown.append`, `Chain.Grown.appendEach` — one call, and any number of calls;
* `Chain.gapless_appendEach` — what the calls answer, what the ledger holds, and what a load makes
  of it.
-/

namespace CommitPipeline

/-- Above a base round a ledger holds the blocks of a number of consecutive rounds, and no others.
Everything that is made for a round names that round, the first block is linked to zero, and every
further one to the block of the round before it. -/
structure LedgerView.Gapless (ledger : LedgerView) (base : Round) (count : Nat) : Prop where
  latest : ledger.latest.toNat = base.toNat + count
  held : ∀ r, (ledger.block r).isSome ↔ base < r ∧ r.toNat ≤ base.toNat + count
  round : ∀ r entry, ledger.block r = some entry → entry.1.round = r ∧ entry.2.round = r
  txns : ∀ r entry, ledger.block r = some entry → entry.1.txns = [BigEndian.ofWord r.val]
  writes : ∀ r entry, ledger.block r = some entry →
    entry.2.writes = [(Chain.roundKey, some (BigEndian.ofWord r.val))]
  first : ∀ r entry, ledger.block r = some entry → r.toNat = base.toNat + 1 →
    entry.1.header.branch = .zero
  linked : ∀ q r older newer, ledger.block q = some older → ledger.block r = some newer →
    q.toNat + 1 = r.toNat → newer.1.header.branch = older.1.digest

namespace LedgerView

variable {ledger ledger' : LedgerView} {base m m' : Round} {blocks : List (Block × Delta)}

/-- The blocks up to the next round, if the ledger still holds what it held. -/
theorem BlocksBetween.concat {entry : Block × Delta} (h : ledger.BlocksBetween base m blocks)
    (hbase : base ≤ m) (hnext : m.toNat + 1 = m'.toNat) (hentry : ledger'.block m' = some entry)
    (hsame : ∀ r, r ≤ m → ledger'.block r = ledger.block r) :
    ledger'.BlocksBetween base m' (blocks ++ [entry]) := by
  have hbase : base.toNat ≤ m.toNat := hbase
  have hlast : base.toNat + 1 + (m.toNat - base.toNat) = m'.toNat := by omega
  have hcount : m'.toNat - base.toNat = m.toNat - base.toNat + 1 := by omega
  rw [BlocksBetween, hcount, List.range'_1_concat, List.map_append, List.map_append, h, hlast]
  congr 1
  · apply List.map_congr_left
    intro n hn
    rw [List.mem_range'_1] at hn
    have hlimit := m.toNat_lt
    have hround : (Round.ofNat n).toNat = n := Round.toNat_ofNat_of_lt (by omega)
    exact (hsame _ (by rw [Round.le_def]; omega)).symm
  · simp [hentry, Round.ofNat_toNat]

theorem BlocksBetween.length (h : ledger.BlocksBetween base m blocks) :
    blocks.length = m.toNat - base.toNat := by
  have hlength := congrArg List.length h
  rwa [List.length_map, List.length_map, List.length_range'] at hlength

/-- A run over blocks that are all held is these blocks. -/
theorem BlocksBetween.run_eq (h : ledger.BlocksBetween base m blocks) :
    ledger.run (m.toNat - base.toNat) (base.toNat + 1) = blocks := by
  have hlength := h.length
  have hsome : ∀ n ∈ List.range' (base.toNat + 1) (m.toNat - base.toNat),
      (ledger.block (.ofNat n)).isSome := by
    intro n hn
    have hmem : ledger.block (.ofNat n) ∈ blocks.map some := by
      rw [h]
      exact List.mem_map_of_mem hn
    obtain ⟨entry, -, hentry⟩ := List.mem_map.mp hmem
    rw [← hentry]
    rfl
  -- A run that is too short would end at a gap, and there is none.
  have hfull : (ledger.run (m.toNat - base.toNat) (base.toNat + 1)).length =
      m.toNat - base.toNat := by
    by_contra hne
    have hshort := Nat.lt_of_le_of_ne (ledger.length_run_le _ _) hne
    have hgap := ledger.block_of_length_run_lt hshort
    have hheld := hsome (base.toNat + 1 +
      (ledger.run (m.toNat - base.toNat) (base.toNat + 1)).length)
      (by rw [List.mem_range'_1]; omega)
    rw [hgap] at hheld
    cases hheld
  have hrun := ledger.map_some_run (m.toNat - base.toNat) (base.toNat + 1)
  rw [hfull, ← h] at hrun
  exact List.map_injective_iff.mpr (Option.some_injective _) hrun

end LedgerView

section Loading

variable {τ : Type} [Tracker τ] [Receptive τ]

/-- A load that no tracker stops. All listeners were asked to start at the durable round, then each
was handed the blocks above it, and the pipeline counts as loaded there; it has reported the gap
behind these blocks and their number. -/
theorem Pipeline.heard_load_of_goes {ledger : LedgerView} {p : Pipeline (Listener τ)}
    (hlatest : ledger.latest.toNat + 1 < Round.limit) (hbehind : p.store.round ≤ ledger.latest)
    (hgoes : ∀ place stop,
      ¬ StopsAt (Tracker.load ledger p.store p.store.round) p.trackers p.effects place stop) :
    let count := ledger.latest.toNat - p.store.round.toNat
    let blocks := ledger.run count (p.store.round.toNat + 1)
    (p.load ledger).1 = .ok () ∧
      (p.load ledger).2.durable = p.store.round ∧ (p.load ledger).2.loaded = true ∧
      Heard (callAll (.load p.store.round ledger.latest) p.labels ++ callBlocks blocks p.labels)
        blocks p (p.load ledger).2 ∧
      (p.load ledger).2.events = p.events ++ ledger.gap count (p.store.round.toNat + 1) ++
        [.loaded p.store.round ledger.latest blocks.length] := by
  intro count blocks
  have hahead : ¬ ledger.latest < p.store.round := Nat.not_lt.mpr hbehind
  have hevents := events_ask (a := Tracker.load ledger p.store p.store.round)
    (fun l fx => Journal.events_noteCall fx l.label _) p
  -- No tracker stops the load, so the question ends well and the replay begins.
  rcases heard_load ledger p.store p.store.round p with
    ⟨hok, hasked⟩ | ⟨place, stop, -, hstops, -⟩
  swap
  · exact absurd hstops (hgoes place stop)
  rcases hask : p.ask (Tracker.load ledger p.store p.store.round) with ⟨_ | _, q⟩ <;>
    rw [hask] at hok hasked hevents
  · cases hok
  obtain ⟨hhanded, hblocks, hgap⟩ := heard_replayAbove_run hlatest hbehind q
  rcases hreplay : q.replayAbove ledger p.store.round with ⟨_ | handed, q'⟩ <;>
    rw [hreplay] at hhanded hblocks hgap
  · cases hhanded
  obtain rfl := Except.ok.inj hhanded
  have hload : p.load ledger = (.ok (),
      ({ q' with durable := p.store.round, loaded := true } : Pipeline _).log
        (.loaded p.store.round ledger.latest blocks.length)) := by
    simp only [load, if_neg hahead, hask, hreplay, blocks, count]
  rw [hasked.labels] at hblocks
  have hall := hasked.trans hblocks
  -- What was heard in the question comes before what was heard in the replay.
  rw [hload]
  refine ⟨rfl, rfl, rfl, ⟨hall.labels, (Journal.calls_log _ _).trans hall.calls, hall.taken⟩, ?_⟩
  exact (Journal.events_log q'.effects _).trans (congrArg (· ++ _) (hgap.trans (by rw [hevents])))

end Loading

namespace Chain

variable {c : Chain} {base : Round} {made : List (Block × Delta)}

/-- Appends a block at each of the given times; gives what came of each attempt. -/
def appendEach : List UInt64 → Chain → List (Except Fault (Block × Delta)) × Chain
  | [], c => ([], c)
  | timestamp :: rest, c =>
    let (entry, c) := c.append timestamp
    let (entries, c) := appendEach rest c
    (entry :: entries, c)

/-- A number of blocks of one time is the case of equal times. -/
theorem appendMany_eq_appendEach (timestamp : UInt64) (count : Nat) (c : Chain) :
    appendMany timestamp count c = appendEach (List.replicate count timestamp) c := by
  induction count generalizing c with
  | zero => rfl
  | succ count ih => simp only [appendMany, List.replicate_succ, appendEach, ih]

/-- The block appended last is the one of the latest round. -/
theorem head?_eq (c : Chain) : c.head? = c.blocks.get? c.latest := by
  rw [head?, latest, RoundTable.last?, RoundTable.rounds, List.getLast?_map]
  rcases hlast : c.blocks.rows.getLast? with _ | ⟨r, entry⟩
  -- Without a block there is none of the base round either.
  · rw [List.getLast?_eq_none_iff] at hlast
    simp [RoundTable.get?, hlast]
  · exact (RoundTable.get?_eq_some_iff.mpr (List.mem_of_getLast? hlast)).symm

/-- What an append leaves if there is a next round. -/
theorem view_append {round : Round} (hnext : c.latest.next = .ok round) (timestamp : UInt64) :
    (c.append timestamp).1 = .ok (blockAt round c.tip timestamp) ∧
      (c.append timestamp).2.view.latest = round ∧
      ∀ r, (c.append timestamp).2.view.block r =
        if r = round then some (blockAt round c.tip timestamp) else c.view.block r := by
  refine ⟨by rw [append, hnext], ?_, fun r => ?_⟩
  · simp [view, latest, RoundTable.last?, RoundTable.rounds, rows_append hnext]
  · rw [append, hnext]
    exact RoundTable.get?_insert _ _ _ _

/-- A chain holds exactly the blocks it has made above its base, oldest first. -/
structure Grown (base : Round) (made : List (Block × Delta)) (c : Chain) : Prop where
  gapless : c.view.Gapless base made.length
  between : c.view.BlocksBetween base c.latest made

theorem grown_startingAt (base : Round) : (startingAt base).Grown base [] where
  gapless := by
    refine ⟨rfl, fun r => ?_, nofun, nofun, nofun, nofun, nofun⟩
    have hnone : ¬ (base < r ∧ r.toNat ≤ base.toNat + 0) := by
      rw [Round.lt_def]
      omega
    exact iff_of_false nofun hnone
  between := by
    have hlatest : (startingAt base).latest = base := rfl
    rw [LedgerView.BlocksBetween, hlatest, Nat.sub_self]
    rfl

/-- A block for the next round leaves no gap. -/
theorem Grown.gapless_append {round : Round} (h : c.Grown base made)
    (hnext : c.latest.next = .ok round) (timestamp : UInt64) :
    (c.append timestamp).2.view.Gapless base (made.length + 1) := by
  obtain ⟨-, hlatest', hblock⟩ := view_append hnext timestamp
  have hlatest : c.latest.toNat = base.toNat + made.length := h.gapless.latest
  have hround : round.toNat = base.toNat + made.length + 1 := by
    rw [← Round.next_eq_ok_iff.mp hnext, hlatest]
  -- Whatever is held is the new block, or it was held before and is not of the new round.
  have hcases : ∀ r entry, (c.append timestamp).2.view.block r = some entry →
      (r = round ∧ entry = blockAt round c.tip timestamp) ∨
        (r.toNat < round.toNat ∧ c.view.block r = some entry) := by
    intro r entry hentry
    rw [hblock] at hentry
    split at hentry
    · next hr => exact .inl ⟨hr, (Option.some.inj hentry).symm⟩
    · have hheld := (h.gapless.held r).mp (by rw [hentry]; rfl)
      exact .inr ⟨by omega, hentry⟩
  refine {
    latest := ?_, held := ?_, round := ?_, txns := ?_, writes := ?_, first := ?_, linked := ?_ }
  · rw [hlatest', hround]
    omega
  · intro r
    rw [hblock]
    by_cases hr : r = round
    · rw [if_pos hr, hr, Round.lt_def]
      exact iff_of_true rfl (by omega)
    · have hne : r.toNat ≠ round.toNat := fun e => hr (Round.ext_toNat e)
      rw [if_neg hr, h.gapless.held, Round.lt_def]
      omega
  · intro r entry hentry
    obtain ⟨rfl, rfl⟩ | ⟨-, hold⟩ := hcases r entry hentry
    · exact ⟨rfl, rfl⟩
    · exact h.gapless.round r entry hold
  · intro r entry hentry
    obtain ⟨rfl, rfl⟩ | ⟨-, hold⟩ := hcases r entry hentry
    · rfl
    · exact h.gapless.txns r entry hold
  · intro r entry hentry
    obtain ⟨rfl, rfl⟩ | ⟨-, hold⟩ := hcases r entry hentry
    · rfl
    · exact h.gapless.writes r entry hold
  -- The first block of all finds no block of the latest round.
  · intro r entry hentry hfirst
    obtain ⟨rfl, rfl⟩ | ⟨-, hold⟩ := hcases r entry hentry
    · have hnone : c.blocks.get? c.latest = none := by
        rw [← Option.not_isSome_iff_eq_none]
        intro hsome
        have hheld := (h.gapless.held c.latest).mp hsome
        rw [Round.lt_def] at hheld
        omega
      show c.tip = .zero
      rw [tip, head?_eq, hnone]
    · exact h.gapless.first r entry hold hfirst
  · intro q r older newer holder hnewer hsucc
    obtain ⟨rfl, rfl⟩ | ⟨hlt, hnewer⟩ := hcases r newer hnewer
    -- The block before the new one is that of the latest round, which is the tip.
    · obtain rfl : q = c.latest := Round.ext_toNat (by omega)
      rw [hblock, if_neg (by rintro heq; rw [heq] at hsucc; omega)] at holder
      have holder : c.blocks.get? c.latest = some older := holder
      show c.tip = older.1.digest
      rw [tip, head?_eq, holder]
    · obtain ⟨rfl, rfl⟩ | ⟨-, holder⟩ := hcases q older holder
      · omega
      · exact h.gapless.linked q r older newer holder hnewer hsucc

/-- One call appends the block of the next round, or there is no next round and the call is a fault
that changes nothing. -/
theorem Grown.append (h : c.Grown base made) (timestamp : UInt64) :
    (base.toNat + made.length + 1 < Round.limit ∧ ∃ entry,
        (c.append timestamp).1 = .ok entry ∧
          (c.append timestamp).2.Grown base (made ++ [entry])) ∨
      (Round.limit ≤ base.toNat + made.length + 1 ∧
        c.append timestamp = (.error .addOverflow, c)) := by
  have hlatest : c.latest.toNat = base.toNat + made.length := h.gapless.latest
  rcases hnext : c.latest.next with f | round
  · obtain ⟨rfl, hlimit⟩ := Round.next_eq_error_iff.mp hnext
    exact .inr ⟨by omega, by rw [Chain.append, hnext]⟩
  · have hround := Round.next_eq_ok_iff.mp hnext
    have hlimit := round.toNat_lt
    obtain ⟨hanswer, hlatest', hblock⟩ := view_append hnext timestamp
    refine .inl ⟨by omega, _, hanswer, ?_, ?_⟩
    · rw [List.length_append, List.length_singleton]
      exact h.gapless_append hnext timestamp
    · show (c.append timestamp).2.view.BlocksBetween base (c.append timestamp).2.view.latest _
      rw [hlatest']
      -- The new block is at its round, and those below are where they were.
      refine h.between.concat (by rw [Round.le_def]; omega) hround ?_ fun r hr => ?_
      · rw [hblock, if_pos rfl]
      · rw [hblock, if_neg]
        rintro rfl
        rw [Round.le_def] at hr
        omega

/-- Any number of calls: blocks are appended as long as there are rounds for them, and from then on
every call is a fault. -/
theorem Grown.appendEach (h : c.Grown base made) (timestamps : List UInt64) :
    ∃ more, (Chain.appendEach timestamps c).2.Grown base (made ++ more) ∧
      (Chain.appendEach timestamps c).1 = more.map .ok ++
        List.replicate (timestamps.length - more.length) (.error .addOverflow) ∧
      more.length = min timestamps.length (Round.limit - 1 - (base.toNat + made.length)) := by
  -- By induction on the calls still to come; `made` are the blocks of those before.
  induction timestamps generalizing c made with
  | nil => exact ⟨[], (List.append_nil made).symm ▸ h, rfl, by simp⟩
  | cons timestamp rest ih =>
    obtain ⟨hroom, entry, hanswer, hgrown⟩ | ⟨hlimit, heq⟩ := h.append timestamp
    · obtain ⟨more, hmore, hanswers, hlength⟩ := ih hgrown
      refine ⟨entry :: more, ?_, ?_, ?_⟩
      · rw [List.append_assoc] at hmore
        exact hmore
      · rw [Chain.appendEach]
        simp only [hanswer, hanswers, List.map_cons, List.cons_append, List.length_cons,
          Nat.add_sub_add_right]
      · rw [List.length_append, List.length_singleton] at hlength
        rw [List.length_cons, List.length_cons]
        omega
    -- At the last round nothing has changed, and the rest of the calls finds the same chain.
    · obtain ⟨more, hmore, hanswers, hlength⟩ := ih h
      have hnone : more = [] := List.length_eq_zero_iff.mp (by omega)
      subst hnone
      refine ⟨[], ?_, ?_, ?_⟩
      · rw [Chain.appendEach, heq]
        exact hmore
      · rw [Chain.appendEach, heq]
        simp only [hanswers, List.map_nil, List.nil_append, List.length_nil, Nat.sub_zero,
          List.length_cons, List.replicate_succ]
      · rw [List.length_nil] at hlength ⊢
        rw [List.length_cons]
        omega

variable {τ : Type} [Tracker τ] [Receptive τ]

open Pipeline

/-- A load of a pipeline whose store ends at the base round hands on all blocks of the chain, and
reports no gap. -/
theorem Grown.heard_load (h : c.Grown base made) {p : Pipeline (Listener τ)}
    (hbase : p.store.round = base) (hroom : base.toNat + made.length + 1 < Round.limit)
    (hgoes : ∀ place stop,
      ¬ StopsAt (Tracker.load c.view p.store base) p.trackers p.effects place stop) :
    (p.load c.view).1 = .ok () ∧
      (p.load c.view).2.durable = base ∧ (p.load c.view).2.loaded = true ∧
      Heard (callAll (.load base c.latest) p.labels ++ callBlocks made p.labels) made p
        (p.load c.view).2 ∧
      (p.load c.view).2.events = p.events ++ [.loaded base c.latest made.length] := by
  subst hbase
  -- The ledger is exactly as far ahead of the store as blocks were made.
  have hlatest : c.view.latest.toNat = p.store.round.toNat + made.length := h.gapless.latest
  have hbehind : p.store.round ≤ c.view.latest := by
    rw [Round.le_def]
    omega
  obtain ⟨hok, hdurable, hloaded, hheard, hevents⟩ :=
    heard_load_of_goes (by omega) hbehind hgoes
  have hrun : c.view.run (c.view.latest.toNat - p.store.round.toNat) (p.store.round.toNat + 1) =
      made := h.between.run_eq
  have hgap : c.view.gap (c.view.latest.toNat - p.store.round.toNat) (p.store.round.toNat + 1) =
      [] := by
    rw [LedgerView.gap, hrun, if_pos (by omega)]
  rw [hrun] at hheard
  rw [hrun, hgap, List.append_nil] at hevents
  exact ⟨hok, hdurable, hloaded, hheard, hevents⟩

/-- A ledger that appends its own blocks above any base round, at any times. The first calls, as
many as there are rounds for, each answer the block that was made, and all further ones a fault; at
the last round a call changes nothing. The ledger then holds exactly the blocks made, without a gap
and linked, and a pipeline whose store ends at the base round, and whose trackers start there, is
handed all of them in order when it loads, unless the ledger is at the last round. -/
theorem gapless_appendEach (base : Round) (timestamps : List UInt64) :
    let c := (appendEach timestamps (startingAt base)).2
    ∃ made : List (Block × Delta),
      made.length = min timestamps.length (Round.limit - 1 - base.toNat) ∧
      (appendEach timestamps (startingAt base)).1 = made.map .ok ++
        List.replicate (timestamps.length - made.length) (.error .addOverflow) ∧
      (Round.limit ≤ base.toNat + made.length + 1 → ∀ timestamp,
        c.append timestamp = (.error .addOverflow, c)) ∧
      c.view.Gapless base made.length ∧ c.view.BlocksBetween base c.latest made ∧
      ∀ p : Pipeline (Listener τ), p.store.round = base →
        base.toNat + made.length + 1 < Round.limit →
        (∀ place stop,
          ¬ StopsAt (Tracker.load c.view p.store base) p.trackers p.effects place stop) →
          (p.load c.view).1 = .ok () ∧
            (p.load c.view).2.durable = base ∧ (p.load c.view).2.loaded = true ∧
            Heard (callAll (.load base c.latest) p.labels ++ callBlocks made p.labels) made p
              (p.load c.view).2 ∧
            (p.load c.view).2.events = p.events ++ [.loaded base c.latest made.length] := by
  intro c
  obtain ⟨made, hgrown, hanswers, hlength⟩ := (grown_startingAt base).appendEach timestamps
  refine ⟨made, hlength, hanswers, fun hlimit timestamp => ?_, hgrown.gapless, hgrown.between,
    fun p hbase hroom hgoes => hgrown.heard_load hbase hroom hgoes⟩
  -- With no round left, the next call is one of those that change nothing.
  obtain ⟨hroom, -⟩ | ⟨-, heq⟩ := hgrown.append timestamp
  · exact absurd hroom (Nat.not_lt.mpr hlimit)
  · exact heq

/-- A round with three rounds above it. -/
def lateBase : Round := ⟨18446744073709551612⟩

/-- A bulletin and a tail behind labels, over a store that ends there. -/
def latePipeline : Pipeline (Listener (Member Tame)) :=
  { gappedPipeline with store := { round := lateBase } }

/-- Two blocks are appended, up to the last round but one, and a load hands both of them on. -/
theorem gapless_appendEach_late :
    let c := (appendEach [7, 9] (startingAt lateBase)).2
    (∀ place stop, ¬ StopsAt (Tracker.load c.view latePipeline.store lateBase)
        latePipeline.trackers latePipeline.effects place stop) ∧
      ∃ made : List (Block × Delta), made.length = 2 ∧
        lateBase.toNat + made.length + 1 < Round.limit ∧ c.view.Gapless lateBase 2 ∧
        (latePipeline.load c.view).1 = .ok () ∧
        Heard (callAll (.load lateBase c.latest) ["front", "back"] ++
          callBlocks made ["front", "back"]) made latePipeline (latePipeline.load c.view).2 := by
  intro c
  have hasked : (sweep (Tracker.load c.view latePipeline.store lateBase) latePipeline.trackers
      latePipeline.effects).1 = .ok () := rfl
  have hgoes := not_stopsAt_of_ok hasked
  obtain ⟨made, hlength, -, -, hgapless, -, hload⟩ :=
    gapless_appendEach (τ := Member Tame) lateBase [7, 9]
  replace hlength : made.length = 2 := hlength
  have hroom : lateBase.toNat + made.length + 1 < Round.limit := by
    rw [hlength]
    decide
  obtain ⟨hok, -, -, hheard, -⟩ := hload latePipeline rfl hroom hgoes
  rw [hlength] at hgapless
  exact ⟨hgoes, made, hlength, hroom, hgapless, hok, hheard⟩

end Chain

end CommitPipeline
