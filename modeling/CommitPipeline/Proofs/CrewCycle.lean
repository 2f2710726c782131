import CommitPipeline.Proofs.Smooth
import CommitPipeline.Proofs.TailWindow
import CommitPipeline.Proofs.Trimming

/-!
# What a crew agrees on it makes durable

A crew whose tail holds every delivered round above the durable one never has to refuse: what is
proposed to it for a delivered round it takes as it is, and a range it agreed on it lands.

The module introduces:

* `Tail.Covers`, `Member.Covers` — a tail holds all rounds between two bounds;
* `Pipeline.report_of_busy`, `Pipeline.report_of_free` — what becomes of a report, in full;
* `Pipeline.exists_writes`, `Pipeline.runWithRetries_of_writes` — a range of held rounds lands.
-/

namespace CommitPipeline

/-- The last round that has a row is not below any other that has one. -/
theorem RoundTable.exists_last? {α : Type} {t : RoundTable α} {r : Round}
    (h : (t.get? r).isSome) : ∃ highest, t.last? = some highest ∧ r ≤ highest := by
  have hmem : r ∈ t.rounds := mem_rounds_iff.mpr (Option.isSome_iff_exists.mp h)
  have hascending : t.rounds.Pairwise (· < ·) := List.pairwise_map.mpr t.ascending
  rcases List.eq_nil_or_concat' t.rounds with hnil | ⟨below, highest, heq⟩
  · rw [hnil] at hmem
    exact absurd hmem List.not_mem_nil
  refine ⟨highest, ?_, ?_⟩
  · rw [last?, heq, List.getLast?_concat]
  rw [heq] at hmem hascending
  rcases List.mem_append.mp hmem with hbelow | hlast
  · exact Nat.le_of_lt ((List.pairwise_append.mp hascending).2.2 r hbelow highest (by simp))
  · obtain rfl := List.mem_singleton.mp hlast
    exact Nat.le_refl _

namespace Tail

variable {u u' : Tail} {range : CommitRange}

/-- In memory the tail holds every round above `lo` that is below `bound`. -/
def Covers (lo : Round) (bound : Nat) (u : Tail) : Prop :=
  ∀ r, lo < r → r.toNat < bound → (u.entries.get? r).isSome

/-- A range that ends at or below a round in memory is taken with the lookback of the tail. -/
theorem refine_eq_some {r : Round} (hheld : (u.entries.get? r).isSome)
    (hend : range.base.toNat + range.length.toNat ≤ r.toNat) :
    u.refine range = some { range with lookback := max range.lookback u.retain } := by
  obtain ⟨highest, hlast, hle⟩ := RoundTable.exists_last? hheld
  have hle := Round.le_def.mp hle
  -- Clamping to the highest round in memory leaves the length alone.
  have hlength : min range.length (highest.since range.base) = range.length := by
    rw [← UInt64.toNat_inj, Word.toNat_min, Round.toNat_since]
    omega
  unfold refine CommitRange.clampNewest
  rw [hlast, Option.map_some, hlength]

/-- The rows of a range are picked if they are held, and as many as the range has rounds. -/
theorem exists_stage {bound : Nat} (hcovers : u.Covers range.base bound)
    (hrange : Stageable range) (hend : range.base.toNat + range.length.toNat < bound) :
    ∃ u', u.stage range = .ok u' ∧ u'.staged.length = range.length.toNat := by
  obtain ⟨u', hstage⟩ | ⟨r, habove, hwithin, hmissing, -⟩ := u.stage_cases hrange
  · refine ⟨u', hstage, ?_⟩
    obtain ⟨-, oldest, newBase, staged, -, -, hcollect, rfl⟩ := stage_eq_ok_iff.mp hstage
    exact (collect_spec hcollect).1
  -- A row that is not found would be that of a covered round.
  · have hheld := hcovers r habove (by omega)
    rw [hmissing] at hheld
    exact absurd hheld (by decide)

/-- Picked rows of a range that can be picked are written. -/
theorem exists_writeStaged (hrange : Stageable range) (s : Store)
    (hstaged : u.staged.length = range.length.toNat) :
    ∃ pruned s', u.writeStaged range s = (.ok pruned, s') := by
  obtain ⟨newBase, floor, hnew, hfloor⟩ := u.exists_floor_of_stageable hrange
  exact ⟨_, _, writeStaged_eq_ok_iff.mpr ⟨hstaged, newBase, floor, hnew, hfloor, rfl⟩⟩

/-- What the tail holds above the durable round it keeps when that round rises. -/
theorem covers_advance {lo newBase : Round} {bound : Nat} (h : u.Covers lo bound)
    (hnew : range.newBase = .ok newBase) (hle : lo ≤ newBase)
    (hadvance : u.advance range = .ok u') :
    u'.Covers newBase bound := by
  obtain ⟨_, floor, hnew', hfloor, rfl⟩ := advance_eq_ok_iff.mp hadvance
  obtain rfl := Except.ok.inj (hnew.symm.trans hnew')
  have hfloor := (windowFloor_eq_ok_iff.mp hfloor).2
  have hretain := u.toNat_retain_pos
  intro r habove hbound
  have habove' := Round.lt_def.mp habove
  -- At least one round is retained, so the window begins no later than after the durable round.
  have hwindow : floor ≤ r := Round.le_def.mpr (by omega)
  show ((u.entries.atLeast floor).get? r).isSome
  rw [RoundTable.get?_atLeast, if_pos hwindow]
  exact h r (Nat.lt_of_le_of_lt hle habove) hbound

/-- A block of the next round makes the window one round longer. -/
theorem covers_add {lo : Round} {block : Block} (h : u.Covers lo block.round.toNat) :
    (u.add block).Covers lo (block.round.toNat + 1) := by
  intro r habove hbound
  show ((u.entries.insert block.round (.ofBlock block)).get? r).isSome
  rw [RoundTable.get?_insert]
  split
  · rfl
  · next hne =>
    have hother : r.toNat ≠ block.round.toNat := fun heq => hne (Round.ext_toNat heq)
    exact h r habove (by omega)

end Tail

namespace Member

/-- A tail holds every round above `lo` that is below `bound`. -/
def Covers (lo : Round) (bound : Nat) : Own → Prop
  | tail u => u.Covers lo bound
  | memory _ | durable _ => True
  | guest g => g.elim

variable {lo : Round} {bound : Nat}

/-- A steady tail covers the same rounds. -/
theorem Covers.of_steady {t u : Own} (hsteady : t.Steady u) (h : t.Covers lo bound) :
    u.Covers lo bound := by
  cases hsteady with
  | memory b => trivial
  | durable b => trivial
  | tail u staged => exact h
  | guest g => exact g.elim

/-- Nothing has to be held below the first round above `lo`. -/
theorem covers_of_le (hbound : bound ≤ lo.toNat + 1) (t : Own) : t.Covers lo bound := by
  cases t with
  | memory b => trivial
  | durable b => trivial
  | tail u =>
    intro r habove hbelow
    have habove := Round.lt_def.mp habove
    omega
  | guest g => exact g.elim

/-- A member of a crew takes the block of the next round in without an error. -/
theorem covers_newBlock (block : Block) (delta : Delta) (t : Own) (fx : Effects)
    (h : t.Covers lo block.round.toNat) :
    (newBlock block delta (t, fx)).1 = .ok () ∧
      (newBlock block delta (t, fx)).2.1.Covers lo (block.round.toNat + 1) := by
  cases t with
  | memory b =>
    refine ⟨?_, trivial⟩
    show (Bulletin.announceBlock block (b, fx)).1 = .ok ()
    rcases Bulletin.announceBlock_cases block b fx with ⟨-, heq⟩ | ⟨hok, -⟩
    · rw [heq]
    · exact hok
  | durable b => exact ⟨rfl, trivial⟩
  | tail u => exact ⟨rfl, Tail.covers_add h⟩
  | guest g => exact g.elim

/-- After a landed cycle the window begins at the new base. -/
theorem covers_landed {k : Ticket} {newBase : Round} (hnew : k.range.newBase = .ok newBase)
    (hle : lo ≤ newBase) (t : Own) (fx : Effects) (h : t.Covers lo bound)
    (hok : (notice .landed k (t, fx)).1 = .ok ()) :
    (notice .landed k (t, fx)).2.1.Covers newBase bound := by
  cases t with
  | memory b => trivial
  | durable b => trivial
  | tail u =>
    cases hadvance : u.advance k.range with
    | error f =>
      rw [notice, hadvance] at hok
      cases hok
    | ok u' =>
      simp only [notice, hadvance]
      exact Tail.covers_advance h hnew hle hadvance
  | guest g => exact g.elim

/-- Released trackers keep their windows. -/
theorem covers_released (k : Ticket) (t : Own) (fx : Effects) (h : t.Covers lo bound) :
    (notice .released k (t, fx)).2.1.Covers lo bound := by
  cases t with
  | memory b => trivial
  | durable b => trivial
  | tail u => exact h
  | guest g => exact g.elim

end Member

namespace Pipeline

variable {p q : Pipeline Own} {before after : List Own} {u u' : Tail} {k k' : Ticket}
  {newBase : Round}

/-! ## Negotiations -/

section Around

variable {round : Round}

/-- A crew takes what its tail takes, and nobody changes in the asking. -/
theorem refineAll_of_refine (h : Around p.trackers before u after) {range range' : CommitRange}
    (hrefine : u.refine range = some range') :
    p.refineAll round range = (.ok range', p) := by
  -- Bulletins pass any range on.
  have hidle : ∀ t : Own, t.IsBulletin → ∀ c : Effects × CommitRange, True →
      refineOne round p.durable (t, c) = (.ok (), t, c) := by
    rintro t ht ⟨fx, range⟩ -
    cases ht <;> rfl
  have htail : refineOne round p.durable ((.tail u : Own), p.effects, range) =
      (.ok (), .tail u, p.effects, range') := by
    simp only [refineOne, Tracker.refine, Member.refine, hrefine]
  unfold refineAll
  rw [h.sweep_of_ok hidle trivial trivial htail, ← h.split]
  rfl

/-- A report that finds the mark set is remembered, and turned away. -/
theorem report_of_busy (h : Around p.trackers before u after)
    (hround : round.toNat + 1 < Round.limit) (hmark : p.inFlight = true) :
    ∃ floor, p.report round =
      (.ok floor, (p.remember round).log (.alreadyInFlight round)) := by
  obtain ⟨floor, hfloor, htoNat⟩ := u.exists_windowFloor hround
  have hretain := u.toNat_retain_pos
  have hle : floor ≤ round := Round.le_def.mpr (by omega)
  have hneed := needAll_eq_ok (p := p.remember round) h hfloor hle
  have hclaim : (p.remember round).claimMark = none := if_pos hmark
  refine ⟨floor, ?_⟩
  simp only [report, hneed, schedule, hclaim]

/-- As many rounds are proposed as lie above the durable one, up to the limit of the settings. -/
theorem toNat_length_propose {τ : Type} {p : Pipeline τ} (committed : Round) (lookback : UInt64) :
    (p.propose committed lookback).length.toNat =
      min (committed.toNat - lookback.toNat - p.durable.toNat) p.config.maxRounds.toNat := by
  rw [propose, Word.toNat_min, Round.toNat_since, Round.toNat_back]

/-- A proposal without rounds gives the mark back. -/
theorem negotiate_of_empty {lookback : UInt64} (h : (p.propose round lookback).length = 0) :
    p.negotiate round lookback = (.ok none, p.clearMark) :=
  if_pos (by simp [CommitRange.isEmpty, h])

/-- A crew whose tail holds the committed round agrees on everything that is proposed behind the
lookback of the tail. -/
theorem negotiate_of_held (h : Around p.trackers before u after)
    (hround : round.toNat + 1 < Round.limit)
    (hheld : p.durable < round → (u.entries.get? round).isSome)
    (hlength : (p.propose round u.retain).length ≠ 0) :
    ∃ newBase, p.negotiate round u.retain =
      (.ok (some { range := p.propose round u.retain, committed := round }),
        p.log (.scheduled p.durable newBase u.retain)) := by
  have hpositive : (p.propose round u.retain).length.toNat ≠ 0 :=
    fun hzero => hlength (UInt64.toNat_inj.mp hzero)
  have htoNat := toNat_length_propose (p := p) round u.retain
  have hbase : (p.propose round u.retain).base = p.durable := rfl
  have habove : p.durable < round := Round.lt_def.mpr (by omega)
  -- The proposal ends below the round, which is held, so it is taken as it is.
  have hrefine : u.refine (p.propose round u.retain) = some (p.propose round u.retain) := by
    rw [Tail.refine_eq_some (hheld habove) (by rw [hbase]; omega)]
    have hmax : max u.retain u.retain = u.retain := by
      rw [← UInt64.toNat_inj, Word.toNat_max, Nat.max_self]
    exact congrArg (fun lookback => some { p.propose round u.retain with lookback }) hmax
  -- Its end is below a round, so it can be computed.
  obtain ⟨newBase, hnew⟩ : ∃ newBase, (p.propose round u.retain).newBase = .ok newBase := by
    cases hnew : (p.propose round u.retain).newBase with
    | ok newBase => exact ⟨newBase, rfl⟩
    | error f =>
      have hlimit := (Round.plus_eq_error_iff.mp hnew).2
      rw [hbase] at hlimit
      omega
  have hfull : (p.propose round u.retain).isEmpty = false := decide_eq_false hlength
  refine ⟨newBase, ?_⟩
  simp only [negotiate, hfull, refineAll_of_refine h hrefine, conclude, hnew]
  rfl

/-- Where there is room, the ticket is queued. -/
theorem dispatch_of_room {k : Ticket} (hintake : p.intake = .working)
    (hroom : p.queue.length < p.config.queueCapacity.toNat) :
    p.dispatch k = { p with queue := p.queue ++ [k] } := by
  have henqueue : p.enqueue k = .ok { p with queue := p.queue ++ [k] } := by
    rw [enqueue, hintake]
    exact if_pos hroom
  rw [dispatch, henqueue]

/-- A report that finds the mark free is negotiated for. If something is left to be made durable
behind the lookback of the tail, all of it goes into the queue as far as one cycle takes it. -/
theorem report_of_free (h : Around p.trackers before u after)
    (hround : round.toNat + 1 < Round.limit) (hmark : p.inFlight = false)
    (hintake : p.intake = .working) (hroom : p.queue.length < p.config.queueCapacity.toNat)
    (hheld : p.durable < round → (u.entries.get? round).isSome) :
    ∃ floor,
      ((p.propose round u.retain).length = 0 ∧ p.report round = (.ok floor, p.remember round)) ∨
      (p.propose round u.retain).length ≠ 0 ∧ ∃ newBase,
        p.report round = (.ok floor,
          { (p.remember round).log (.scheduled p.durable newBase u.retain) with
            inFlight := true
            queue := p.queue ++ [{ range := p.propose round u.retain, committed := round }] }) := by
  obtain ⟨floor, hfloor, htoNat⟩ := u.exists_windowFloor hround
  have hretain := u.toNat_retain_pos
  have hle : floor ≤ round := Round.le_def.mpr (by omega)
  have hneed := needAll_eq_ok (p := p.remember round) h hfloor hle
  have hclaim : (p.remember round).claimMark = some { p.remember round with inFlight := true } :=
    if_neg (by simp [remember, hmark])
  refine ⟨floor, ?_⟩
  by_cases hlength : (p.propose round u.retain).length = 0
  · -- The mark is given back at once, so all that is left of the negotiation is the round.
    have hback : ({ p.remember round with inFlight := true } : Pipeline Own).clearMark =
        p.remember round := by
      simp [clearMark, remember, hmark]
    have hnegotiate := negotiate_of_empty (p := { p.remember round with inFlight := true }) hlength
    refine .inl ⟨hlength, ?_⟩
    simp only [report, hneed, schedule, hclaim, hnegotiate, hback]
  · obtain ⟨newBase, hnegotiate⟩ :=
      negotiate_of_held (p := { p.remember round with inFlight := true }) h hround hheld hlength
    refine .inr ⟨hlength, newBase, ?_⟩
    simp only [report, hneed, schedule, hclaim, hnegotiate]
    exact congrArg (Prod.mk _) (dispatch_of_room hintake hroom)

/-! ## Cycles -/

/-- A crew gets ready if its tail does. -/
theorem prepareAll_of_stage (h : Around p.trackers before u after)
    (hstage : u.stage k.range = .ok u') :
    p.prepareAll k = (.ok (), k, { p with trackers := before ++ .tail u' :: after }) := by
  have hidle : ∀ t : Own, t.IsBulletin → ∀ c : Effects × Ticket, True →
      Tracker.prepare (t, c) = (.ok (), t, c) := by
    intro t ht c _
    cases ht <;> rfl
  have htail : Tracker.prepare ((.tail u : Own), p.effects, k) =
      (.ok (), .tail u', p.effects, k) := by
    show Member.prepare _ = _
    rw [Member.prepare, hstage]
  unfold prepareAll
  rw [h.sweep_of_ok hidle trivial trivial htail]

/-- The transaction of a crew is written if its tail can write. -/
theorem exists_transaction (h : Around p.trackers before u after) {pruned : Nat} {working : Store}
    (hwrite : u.writeStaged k.range p.store = (.ok pruned, working)) (newBase : Round) :
    ∃ q, p.transaction newBase k = (.ok (), k, q) := by
  have hidle : ∀ t : Own, t.IsBulletin → ∀ c : Effects × Ticket × Store, True →
      Tracker.write (t, c) = (.ok (), t, c) := by
    intro t ht c _
    cases ht <;> rfl
  have htail : Tracker.write ((.tail u : Own), p.effects, k, p.store) =
      (.ok (), .tail u, p.effects.logIf (pruned ≠ 0) (.rowsPruned pruned), k, working) := by
    show Member.write _ = _
    rw [Member.write, hwrite]
  have hsweep : sweep Tracker.write p.trackers (p.effects, k, p.store) = _ :=
    h.sweep_of_ok hidle trivial trivial htail
  unfold transaction Store.transact writeAll
  rw [hsweep]
  exact ⟨_, rfl⟩

end Around

/-- A range above the durable round whose rounds are all held is prepared and written. -/
theorem exists_writes {retain : UInt64} {bound : Nat} (hcrew : Crew retain p.kinds)
    (hloaded : p.loaded) (hcovers : ∀ t ∈ p.trackers, t.Covers p.durable bound)
    (hbase : k.range.base = p.durable) (hrange : Tail.Stageable k.range)
    (hend : k.range.base.toNat + k.range.length.toNat < bound) :
    ∃ newBase q, p.Writes k newBase k q := by
  obtain ⟨before, u, after, haround, -⟩ := hcrew.exists_around
  have hu : u.Covers k.range.base bound := hbase ▸ hcovers (.tail u) haround.mem
  -- Only the tail has anything to prepare and to write.
  obtain ⟨u', hstage, hstaged⟩ := Tail.exists_stage hu hrange hend
  obtain ⟨pruned, working, hwrite⟩ := Tail.exists_writeStaged hrange p.store hstaged
  obtain ⟨newBase, -, hnew, -⟩ := u.exists_floor_of_stageable hrange
  have hprepared := prepareAll_of_stage (k := k)
    (p := p.log (.cycleEntered k.range.base k.range.length)) haround hstage
  obtain ⟨q, hwritten⟩ := exists_transaction (k := k)
    (p := { p.log (.cycleEntered k.range.base k.range.length) with
      trackers := before ++ .tail u' :: after }) ⟨rfl, haround.others⟩ hwrite newBase
  exact ⟨newBase, q, hloaded, hbase, k, _, hprepared, hnew, hwritten⟩

/-- A cycle that wrote its transaction goes on to tell the trackers. -/
theorem runCycle_of_writes {γ : Type} [Guest γ] {p q : Pipeline (Member γ)}
    (h : p.Writes k newBase k' q) : p.runCycle k = q.settleLanded newBase k' := by
  obtain ⟨k₁, p₁, hprepared, hnew, hwritten⟩ := h.phases
  have hloaded : (p.log (.cycleEntered k.range.base k.range.length)).loaded = true := h.loaded
  have hbase : ¬k.range.base ≠ (p.log (.cycleEntered k.range.base k.range.length)).durable :=
    not_not.mpr h.base
  simp only [runCycle, hloaded, Bool.not_true, Bool.false_eq_true, if_false, if_neg hbase,
    preparePhase, hprepared, writePhase, hnew, hwritten]

/-- A cycle that lands is not tried again. -/
theorem runWithRetries_of_landed {τ : Type} [Tracker τ] {p : Pipeline τ} {o : Outcome}
    (h : (p.runCycle k).1 = .ok o) : p.runWithRetries k = p.runCycle k := by
  unfold runWithRetries
  cases p.config.prepareRetries.toNat with
  | zero => rfl
  | succ retries =>
    rcases hcycle : p.runCycle k with ⟨result, k', q⟩
    rw [hcycle] at h
    obtain rfl : result = .ok o := h
    simp only [retryHalving, hcycle]

/-- What the tail holds above the durable round it keeps through a cycle that lands. -/
theorem covers_of_writes {bound : Nat} (h : p.Writes k newBase k' q) (hp : p.Current)
    (hcovers : ∀ t ∈ p.trackers, t.Covers p.durable bound) :
    ∀ t ∈ (q.settleLanded newBase k').2.2.trackers, t.Covers newBase bound := by
  have hnew : k'.range.newBase = .ok newBase := by rw [h.range, h.lands]
  have hwritten : ∀ t ∈ q.trackers, t.Covers p.durable bound :=
    h.steady.forall_trackers (fun hsteady => .of_steady hsteady) hcovers
  exact settleLanded_forall_of_ok
    (fun t fx ht hok => Member.covers_landed (k := { k' with flushed := true }) hnew h.le t fx ht
      hok)
    (fun t fx ht _ => Member.covers_released _ t fx ht) (settles_of_writes h hp) hwritten

/-- A transaction that was written adds no failure to the journal. -/
theorem Writes.smooth (h : p.Writes k newBase k' q) (hp : p.Smooth) : q.Smooth := by
  obtain ⟨k₁, p₁, hprepared, -, hwritten⟩ := h.phases
  have hentered : (p.log (.cycleEntered k.range.base k.range.length)).Smooth := smooth_log hp rfl
  have hprepare := smooth_prepareAll k hentered
  rw [hprepared] at hprepare
  have hwrite := smooth_transaction newBase k₁ hprepare
  rw [hwritten] at hwrite
  exact hwrite

/-! ## Blocks and loads -/

/-- All trackers of a crew take the block in. -/
theorem covers_newBlock {lo : Round} {block : Block} (delta : Delta)
    (h : ∀ t ∈ p.trackers, t.Covers lo block.round.toNat) :
    (p.newBlock block delta).1 = .ok () ∧
      ∀ t ∈ (p.newBlock block delta).2.trackers, t.Covers lo (block.round.toNat + 1) :=
  sweep_of_forall_ok (Member.covers_newBlock block delta) p.trackers p.effects h

/-- After a replay that ended well the tail holds every round that was replayed. -/
theorem covers_replay {ledger : LedgerView} {lo : Round} {count handed : Nat} {r : Round}
    (hholds : ∀ s : Round, r ≤ s → s.toNat < r.toNat + count →
      ∃ entry, ledger.block s = some entry ∧ entry.1.round = s)
    (hcovers : ∀ t ∈ p.trackers, t.Covers lo r.toNat)
    (h : p.replay ledger count r = (.ok handed, q)) :
    ∀ t ∈ q.trackers, t.Covers lo (r.toNat + count) := by
  -- By induction on the blocks still to come: each puts the bound up by one.
  induction count generalizing r p handed with
  | zero =>
    obtain rfl : p = q := congrArg Prod.snd h
    exact hcovers
  | succ count ih =>
    -- The next block is held, and no tracker of a crew refuses it.
    obtain ⟨⟨block, delta⟩, hblock, hround⟩ := hholds r (Nat.le_refl _) (by omega)
    obtain rfl : block.round = r := hround
    obtain ⟨hok, hadded⟩ := covers_newBlock delta hcovers
    unfold replay at h
    rw [hblock] at h
    simp only at h
    rcases hask : p.newBlock block delta with ⟨f | _, p₁⟩ <;> rw [hask] at h hok hadded
    · cases hok
    cases hnext : block.round.next with
    | error f =>
      rw [hnext] at h
      cases congrArg Prod.fst h
    | ok following =>
      have hfollowing := Round.next_eq_ok_iff.mp hnext
      rw [hnext] at h
      simp only at h
      rcases hrest : p₁.replay ledger count following with ⟨f | handed', q'⟩ <;> rw [hrest] at h
      · cases congrArg Prod.fst h
      · obtain rfl : q' = q := congrArg Prod.snd h
        have hall : following.toNat + count = block.round.toNat + (count + 1) := by omega
        rw [← hall]
        refine ih ?_ (by rw [← hfollowing]; exact hadded) hrest
        intro s hle hlt
        have hle := Round.le_def.mp hle
        exact hholds s (Round.le_def.mpr (by omega)) (by omega)

/-- What a load that ended well leaves of a pipeline: it is loaded at the stored round, which is not
ahead of the ledger. -/
theorem asked_of_load {τ : Type} [Tracker τ] {p q : Pipeline τ} {ledger : LedgerView}
    (h : p.load ledger = (.ok (), q)) :
    p.store.round ≤ ledger.latest ∧
      ({ p with durable := p.store.round, loaded := true } : Pipeline τ).Asked q := by
  obtain ⟨hbehind, p₁, p₂, replayed, hasked, hreplayed, rfl⟩ := steps_of_load h
  refine ⟨hbehind, ?_⟩
  have hask : p.Asked p₁ := by
    obtain rfl := congrArg Prod.snd hasked
    exact asked_ask _
  have hreplay := replayAbove_preserves (I := p.Asked) (fun _ _ h => h.trans (asked_log _))
    (fun _ block delta h => h.trans (asked_newBlock block delta)) ledger p.store.round hask
  rw [hreplayed] at hreplay
  obtain ⟨trackers, effects, rfl⟩ := hreplay
  exact ⟨_, _, rfl⟩

/-- After a load that ended well, from a ledger that holds everything, the tail holds every round
above the stored one. -/
theorem covers_of_load {ledger : LedgerView}
    (hholds : ∀ r : Round, 0 < r.toNat → r ≤ ledger.latest →
      ∃ entry, ledger.block r = some entry ∧ entry.1.round = r)
    (h : p.load ledger = (.ok (), q)) :
    ∀ t ∈ q.trackers, t.Covers p.store.round (ledger.latest.toNat + 1) := by
  obtain ⟨hbehind, p₁, p₂, replayed, -, hreplayed, rfl⟩ := steps_of_load h
  have hle := Round.le_def.mp hbehind
  show ∀ t ∈ p₂.trackers, _
  unfold replayAbove at hreplayed
  cases hnext : p.store.round.next with
  | error f =>
    rw [hnext] at hreplayed
    cases congrArg Prod.fst hreplayed
  | ok first =>
    rw [hnext] at hreplayed
    have hfirst := Round.next_eq_ok_iff.mp hnext
    -- The replay ends at the latest round of the ledger.
    have hcount : first.toNat + (ledger.latest.since p.store.round).toNat =
        ledger.latest.toNat + 1 := by
      rw [Round.toNat_since]
      omega
    rw [← hcount]
    -- Below the first round to be replayed there is nothing to be held yet.
    refine covers_replay ?_ (fun t _ => Member.covers_of_le (by omega) t) hreplayed
    intro r hle hlt
    have hle := Round.le_def.mp hle
    exact hholds r (by omega) (Round.le_def.mpr (by omega))

end Pipeline

end CommitPipeline
