import CommitPipeline.Proofs.Crew
import CommitPipeline.Proofs.Tiling

/-!
# What a crew shows of the blocks it was given

The blocks of a ledger are a series, one for each round. Then everything that the readers of a crew
see is fixed by how far the blocks have come: which were delivered, up to where they are durable,
and up to where this was announced.

The module introduces:

* `Series` — the blocks of the rounds, of which a ledger holds those up to some round;
* `Progress` — how far the blocks have come;
* `Store.Rows` — the table of the tail holds the window that ends at the stored round;
* `Member.Shows` — what a tracker shows at some progress, with one lemma for each thing that moves
  the progress;
* `Pipeline.rows_of_writes` — a cycle that is written moves the window of the table;
* `Pipeline.InUse` — what a crew in use keeps whatever is asked of it.
-/

namespace CommitPipeline

/-- The blocks of a ledger, one for each round. -/
structure Series where
  /-- The block of a round with what it changes. -/
  block : Round → Block × Delta
  /-- It is the block of that round. -/
  round_block : ∀ r, (block r).1.round = r

namespace Series

/-- The ledger that holds the blocks from round one up to `height`. -/
def upTo (s : Series) (height : Round) : LedgerView where
  latest := height
  block r := if 0 < r.toNat ∧ r ≤ height then some (s.block r) else none

/-- What a tail keeps of the block of a round. -/
def summary (s : Series) (r : Round) : Summary := .ofBlock (s.block r).1

end Series

/-- How far the blocks of a series have come. -/
structure Progress where
  /-- The round up to which they are durable. -/
  durable : Round
  /-- The round up to which durable bulletins have announced this. -/
  announced : Round
  /-- The latest round that was delivered. -/
  latest : Round
  /-- The rounds that were delivered. -/
  delivered : Round → Prop

/-- The progress once a round is delivered. -/
def Progress.deliver (v : Progress) (r : Round) : Progress :=
  { v with latest := max v.latest r, delivered := fun q => q = r ∨ v.delivered q }

/-- The rounds that are kept once `durable` is durable. There is no round zero to be kept. -/
def InWindow (retain : UInt64) (durable r : Round) : Prop :=
  0 < r.toNat ∧ durable.toNat + 1 ≤ r.toNat + retain.toNat

variable {s : Series} {retain : UInt64} {v : Progress}

/-- The table of the tail holds the window that ends at the stored round, and nothing else. -/
def Store.Rows (s : Series) (retain : UInt64) (store : Store) : Prop :=
  ∀ r row, store.get? tailTable r = some row ↔
    row = (s.summary r).encode ∧ InWindow retain store.round r ∧ r ≤ store.round

/-- A tail retains a number of rounds, and in memory it holds the window from its floor on, as far
as the blocks are durable or were delivered. -/
def Tail.Shows (s : Series) (retain : UInt64) (v : Progress) (u : Tail) : Prop :=
  u.retain = retain ∧ ∀ r sm, u.entries.get? r = some sm ↔
    sm = s.summary r ∧ InWindow retain v.durable r ∧ (r ≤ v.durable ∨ v.delivered r)

/-- What a tracker shows at some progress. -/
def Member.Shows (s : Series) (retain : UInt64) (v : Progress) : Own → Prop
  | memory b => b.latest = v.latest
  | durable b => b.latest = v.announced
  | tail u => u.Shows s retain v
  | guest g => g.elim

namespace Tail

variable {u u' : Tail}

/-- A block that is not behind the window is taken into it. -/
theorem shows_add (h : u.Shows s retain v) {r : Round} (hpos : 0 < r.toNat) (hle : v.durable ≤ r) :
    (u.add (s.block r).1).Shows s retain (v.deliver r) := by
  obtain ⟨rfl, hentries⟩ := h
  refine ⟨rfl, fun q sm => ?_⟩
  show (u.entries.insert (s.block r).1.round (.ofBlock (s.block r).1)).get? q = some sm ↔
    sm = s.summary q ∧ InWindow u.retain v.durable q ∧ (q ≤ v.durable ∨ q = r ∨ v.delivered q)
  rw [s.round_block, RoundTable.get?_insert]
  -- Only the entry of the block's own round is new.
  by_cases hq : q = r
  · subst hq
    have hwindow : InWindow u.retain v.durable q := by
      have hretain := u.toNat_retain_pos
      have hle := Round.le_def.mp hle
      exact ⟨hpos, by omega⟩
    rw [if_pos rfl, Option.some.injEq]
    simp only [hwindow, true_or, or_true, and_true]
    exact eq_comm
  · simp only [hq, if_false, false_or]
    exact hentries q sm

/-- Once more rounds are durable, all of which were delivered, what falls behind the window is
gone. -/
theorem shows_advance (h : u.Shows s retain v) {range : CommitRange} {newBase : Round}
    (hnew : range.newBase = .ok newBase) (hle : v.durable ≤ newBase)
    (hdelivered : ∀ r, v.durable < r → r ≤ newBase → v.delivered r)
    (hadvance : u.advance range = .ok u') : u'.Shows s retain { v with durable := newBase } := by
  obtain ⟨rfl, hentries⟩ := h
  obtain ⟨newBase', floor, hnew', hfloor, rfl⟩ := advance_eq_ok_iff.mp hadvance
  obtain rfl := Except.ok.inj (hnew.symm.trans hnew')
  have hfloor := (windowFloor_eq_ok_iff.mp hfloor).2
  refine ⟨rfl, fun r sm => ?_⟩
  show (u.entries.atLeast floor).get? r = some sm ↔
    sm = s.summary r ∧ InWindow u.retain newBase r ∧ (r ≤ newBase ∨ v.delivered r)
  rw [RoundTable.get?_atLeast, Option.ite_none_right_eq_some, hentries]
  simp only [InWindow, Round.le_def, Round.lt_def] at hle hdelivered ⊢
  -- The old window reaches further down than the new one, and above the old durable round
  -- everything was delivered.
  constructor
  · rintro ⟨hin, hsm, ⟨hpos, -⟩, hheld⟩
    exact ⟨hsm, ⟨hpos, by omega⟩, hheld.imp_left fun hr => Nat.le_trans hr hle⟩
  · rintro ⟨hsm, ⟨hpos, hin⟩, hheld⟩
    refine ⟨by omega, hsm, ⟨hpos, by omega⟩, ?_⟩
    rcases Nat.lt_or_ge v.durable.toNat r.toNat with hr | hr
    · exact .inr (hheld.elim (hdelivered r hr) id)
    · exact .inl hr

/-- A tail that starts from its table shows what is durable. -/
theorem shows_reload {store : Store} (hrows : store.Rows s u.retain) {latest : Round}
    (hlimit : store.round.toNat + 1 < Round.limit) :
    ∃ u', u.reload store store.round = .ok u' ∧
      u'.Shows s u.retain ⟨store.round, store.round, latest, (· ≤ store.round)⟩ := by
  obtain ⟨floor, hfloor, htoNat⟩ := u.exists_windowFloor hlimit
  obtain ⟨entries, hreload, hget⟩ := reload_eq_ok hfloor
    (fun r row hrow => ((hrows r row).mp hrow).1)
  refine ⟨_, hreload, rfl, fun r sm => ?_⟩
  have hheld : (store.get? tailTable r).isSome ↔
      InWindow u.retain store.round r ∧ r ≤ store.round := by
    rw [Option.isSome_iff_exists]
    simp only [hrows r, exists_eq_left]
  show entries.get? r = some sm ↔
    sm = s.summary r ∧ InWindow u.retain store.round r ∧ (r ≤ store.round ∨ r ≤ store.round)
  rw [hget, Option.ite_none_right_eq_some, hheld, Option.some.injEq, or_self, Round.le_def, htoNat]
  constructor
  · rintro ⟨⟨-, -, hin, hle⟩, rfl⟩
    exact ⟨rfl, hin, hle⟩
  · rintro ⟨rfl, hin, hle⟩
    exact ⟨⟨by have := hin.2; omega, hle, hin, hle⟩, rfl⟩

/-- The rows picked for a range that begins at the durable round are those of its rounds, so each of
these was delivered. Once they are written the table holds the window of the new durable round. -/
theorem rows_writeStaged {store working : Store} {range : CommitRange} {newBase : Round}
    {pruned : Nat} (h : u.Shows s retain v) (hrows : store.Rows s retain)
    (hstored : store.round = v.durable) (hbase : range.base = v.durable)
    (hnew : range.newBase = .ok newBase) (hstage : u.stage range = .ok u')
    (hwrite : u'.writeStaged range store = (.ok pruned, working)) :
    (working.setRound newBase).Rows s retain ∧
      ∀ r, v.durable < r → r ≤ newBase → v.delivered r := by
  obtain ⟨rfl, hentries⟩ := h
  obtain ⟨floor, hfloor, hheld, hwritten⟩ := get?_writeStaged hnew hstage hwrite
  have hlow := (windowFloor_eq_ok_iff.mp hfloor).2
  have hend := Round.plus_eq_ok_iff.mp hnew
  rw [hbase] at hend
  simp only [hbase] at hheld hwritten
  have hheld : ∀ r, v.durable < r → r ≤ newBase →
      u.entries.get? r = some (s.summary r) ∧ v.delivered r := by
    intro r hr hr'
    obtain ⟨sm, hget⟩ := Option.isSome_iff_exists.mp (hheld r hr hr')
    obtain ⟨rfl, -, hdelivered⟩ := (hentries r sm).mp hget
    exact ⟨hget, hdelivered.resolve_left (Nat.not_le.mpr hr)⟩
  refine ⟨fun r row => ?_, fun r hr hr' => (hheld r hr hr').2⟩
  show working.get? tailTable r = some row ↔
    row = (s.summary r).encode ∧ InWindow u.retain newBase r ∧ r ≤ newBase
  rw [hwritten]
  simp only [InWindow, Round.le_def, Round.lt_def] at hheld ⊢
  -- Behind the floor every row is deleted, also one that was written just now.
  by_cases hbehind : r.toNat < floor.toNat
  · rw [if_pos hbehind]
    simp only [reduceCtorEq, false_iff, not_and]
    omega
  rw [if_neg hbehind]
  by_cases hin : v.durable.toNat < r.toNat ∧ r.toNat ≤ newBase.toNat
  · rw [if_pos hin, (hheld r hin.1 hin.2).1, Option.map_some, Option.some.injEq]
    have hwindow : 0 < r.toNat ∧ newBase.toNat + 1 ≤ r.toNat + u.retain.toNat := by omega
    simp only [hwindow, hin.2, and_self, and_true]
    exact eq_comm
  · -- What was not written now was durable before, or lies ahead of the new durable round.
    rw [if_neg hin, hrows r row, hstored]
    simp only [InWindow, Round.le_def]
    have hwindow : (0 < r.toNat ∧ v.durable.toNat + 1 ≤ r.toNat + u.retain.toNat) ∧
        r.toNat ≤ v.durable.toNat ↔
        (0 < r.toNat ∧ newBase.toNat + 1 ≤ r.toNat + u.retain.toNat) ∧
          r.toNat ≤ newBase.toNat := by omega
    rw [hwindow]

end Tail

namespace Member

variable {t u : Own}

/-- What a tracker shows is not touched by steady changes. -/
theorem Shows.of_steady (hsteady : t.Steady u) (h : t.Shows s retain v) : u.Shows s retain v := by
  cases hsteady with
  | memory b => exact h
  | durable b => exact h
  | tail u staged => exact h
  | guest g => exact g.elim

/-- A round is delivered that is not behind the durable one. -/
theorem shows_newBlock {r : Round} (hpos : 0 < r.toNat) (hle : v.durable ≤ r) (t : Own)
    (fx : Effects) (h : t.Shows s retain v) :
    (newBlock (s.block r).1 (s.block r).2 (t, fx)).1 = .ok () ∧
      (newBlock (s.block r).1 (s.block r).2 (t, fx)).2.1.Shows s retain (v.deliver r) := by
  cases t with
  | memory b =>
    have h : b.latest = v.latest := h
    show (Bulletin.announceBlock (s.block r).1 (b, fx)).1 = .ok () ∧
      (Bulletin.announceBlock (s.block r).1 (b, fx)).2.1.latest = max v.latest r
    have hround := s.round_block r
    rcases Bulletin.announceBlock_cases (s.block r).1 b fx with ⟨hbelow, heq⟩ | ⟨hok, hannounced⟩
    · rw [heq, ← Round.toNat_inj, Round.toNat_max, ← h, Nat.max_eq_left (hround ▸ hbelow)]
      exact ⟨rfl, rfl⟩
    · have habove := hannounced.notBelow
      rw [h, hround] at habove
      rw [hannounced.latest, hround, ← Round.toNat_inj, Round.toNat_max, Nat.max_eq_right habove]
      exact ⟨hok, rfl⟩
  | durable b => exact ⟨rfl, h⟩
  | tail u => exact ⟨rfl, Tail.shows_add h hpos hle⟩
  | guest g => exact g.elim

/-- More rounds are durable, all of which were delivered. -/
theorem shows_landed {k : Ticket} {newBase : Round} (hnew : k.range.newBase = .ok newBase)
    (hle : v.durable ≤ newBase) (hdelivered : ∀ r, v.durable < r → r ≤ newBase → v.delivered r)
    (t : Own) (fx : Effects) (h : t.Shows s retain v)
    (hok : (notice .landed k (t, fx)).1 = .ok ()) :
    (notice .landed k (t, fx)).2.1.Shows s retain { v with durable := newBase } := by
  cases t with
  | memory b => exact h
  | durable b => exact h
  | tail u =>
    cases hadvance : u.advance k.range with
    | error f =>
      rw [notice, hadvance] at hok
      cases hok
    | ok u' =>
      rw [notice, hadvance]
      exact Tail.shows_advance h hnew hle hdelivered hadvance
  | guest g => exact g.elim

/-- What is durable is announced. -/
theorem shows_released {k : Ticket} {newBase : Round} (hnew : k.range.newBase = .ok newBase)
    (t : Own) (fx : Effects) (h : t.Shows s retain v)
    (hok : (notice .released k (t, fx)).1 = .ok ()) :
    (notice .released k (t, fx)).2.1.Shows s retain { v with announced := newBase } := by
  cases t with
  | memory b => exact h
  | durable b =>
    have hok : (Bulletin.announceLanded k (b, fx)).1 = .ok () := hok
    show (Bulletin.announceLanded k (b, fx)).2.1.latest = newBase
    rw [Bulletin.announceLanded_eq hnew] at hok ⊢
    rcases Bulletin.announce_cases newBase b fx with ⟨-, heq⟩ | ⟨-, hannounced⟩
    · rw [heq] at hok
      cases hok
    · exact hannounced.latest
  | tail u => exact h
  | guest g => exact g.elim

/-- A tracker starts from the store: nothing but what is durable was delivered so far, and the
memory bulletin is at the last round of the ledger. -/
theorem shows_load {store : Store} (ledger : LedgerView) (hrows : store.Rows s retain)
    (hlimit : store.round.toNat + 1 < Round.limit) (t : Own) (fx : Effects)
    (hretain : ∀ u, t = .tail u → u.retain = retain) :
    (load ledger store store.round (t, fx)).1 = .ok () ∧
      (load ledger store store.round (t, fx)).2.1.Shows s retain
        ⟨store.round, store.round, ledger.latest, (· ≤ store.round)⟩ := by
  cases t with
  | memory b => exact ⟨rfl, rfl⟩
  | durable b => exact ⟨rfl, rfl⟩
  | tail u =>
    obtain rfl := hretain u rfl
    obtain ⟨u', hreload, hshows⟩ := Tail.shows_reload hrows hlimit
    rw [load, hreload]
    exact ⟨rfl, hshows⟩
  | guest g => exact g.elim

end Member

namespace Pipeline

/-! ## Cycles that are written -/

section Around

variable {p q : Pipeline Own} {before after : List Own} {u : Tail} {k k' : Ticket} {newBase : Round}

/-- When a crew gets ready, its tail picks rows and the bulletins do nothing. -/
theorem prepareAll_eq_ok (h : Around p.trackers before u after)
    (hprepared : p.prepareAll k = (.ok (), k', q)) :
    ∃ u', u.stage k.range = .ok u' ∧ k' = k ∧
      q = { p with trackers := before ++ .tail u' :: after } := by
  -- Bulletins have nothing to prepare, so the sweep is what the tail does.
  have hidle : ∀ t : Own, t.IsBulletin → ∀ c : Effects × Ticket, True →
      Tracker.prepare (t, c) = (.ok (), t, c) := by
    intro t ht c _
    cases ht <;> rfl
  unfold prepareAll at hprepared
  cases hstage : u.stage k.range with
  | error stop =>
    have htail : Tracker.prepare ((.tail u : Own), p.effects, k) =
        (.error stop, .tail u, p.effects, k) := by
      show Member.prepare _ = _
      rw [Member.prepare, hstage]
    rw [h.sweep_of_error hidle trivial htail] at hprepared
    cases hprepared
  | ok u' =>
    have htail : Tracker.prepare ((.tail u : Own), p.effects, k) =
        (.ok (), .tail u', p.effects, k) := by
      show Member.prepare _ = _
      rw [Member.prepare, hstage]
    rw [h.sweep_of_ok hidle trivial trivial htail] at hprepared
    obtain ⟨-, rfl, rfl⟩ := Prod.mk.inj hprepared |>.imp_right Prod.mk.inj
    exact ⟨u', rfl, rfl, rfl⟩

/-- What a crew writes in a transaction is what its tail writes. -/
theorem store_transaction (h : Around p.trackers before u after)
    (hwritten : p.transaction newBase k = (.ok (), k', q)) :
    ∃ pruned working, u.writeStaged k.range p.store = (.ok pruned, working) ∧
      q.store = working.setRound newBase := by
  have hidle : ∀ t : Own, t.IsBulletin → ∀ c : Effects × Ticket × Store, True →
      Tracker.write (t, c) = (.ok (), t, c) := by
    intro t ht c _
    cases ht <;> rfl
  obtain ⟨trackers, effects, working, hsweep, rfl⟩ := transaction_eq_ok hwritten
  -- The tail writes before the round is set, and bulletins write nothing.
  rcases hwrite : u.writeStaged k.range p.store with ⟨stop | pruned, written⟩
  · have htail : Tracker.write ((.tail u : Own), p.effects, k, p.store) =
        (.error stop, .tail u, p.effects, k, written) := by
      show Member.write _ = _
      rw [Member.write, hwrite]
    rw [h.sweep_of_error hidle trivial htail] at hsweep
    cases hsweep
  · have htail : Tracker.write ((.tail u : Own), p.effects, k, p.store) =
        (.ok (), .tail u, p.effects.logIf (pruned ≠ 0) (.rowsPruned pruned), k, written) := by
      show Member.write _ = _
      rw [Member.write, hwrite]
    rw [h.sweep_of_ok hidle trivial trivial htail] at hsweep
    obtain rfl : written = working := congrArg (fun left => left.2.2.2.2) hsweep
    exact ⟨pruned, written, rfl, rfl⟩

end Around

variable {p q : Pipeline Own} {k k' : Ticket} {newBase : Round}

/-- A cycle that is written moves the window of the table to its new durable round. All rounds that
become durable were delivered. -/
theorem rows_of_writes (hcrew : Crew retain p.kinds) (hrows : p.store.Rows s retain)
    (hshows : ∀ t ∈ p.trackers, t.Shows s retain v) (hstored : p.store.round = v.durable)
    (hdurable : p.durable = v.durable) (h : p.Writes k newBase k' q) :
    q.store.Rows s retain ∧ ∀ r, v.durable < r → r ≤ newBase → v.delivered r := by
  obtain ⟨before, u, after, haround, -⟩ := hcrew.exists_around
  have hu : u.Shows s retain v := hshows (.tail u) haround.mem
  obtain ⟨k₁, p₁, hprepared, hnew, hwritten⟩ := h.phases
  obtain ⟨u', hstage, rfl, rfl⟩ := prepareAll_eq_ok (p := p.log _) haround hprepared
  obtain ⟨pruned, working, hwrite, hstore⟩ := store_transaction ⟨rfl, haround.others⟩ hwritten
  rw [hstore]
  exact Tail.rows_writeStaged hu hrows hstored (h.base.trans hdurable) hnew hstage hwrite

/-- A cycle that lands leads to the progress of its new durable round. -/
theorem shows_of_writes (hp : p.Current) (hcrew : Crew retain p.kinds)
    (hrows : p.store.Rows s retain) (hshows : ∀ t ∈ p.trackers, t.Shows s retain v)
    (hdurable : p.durable = v.durable) (h : p.Writes k newBase k' q) :
    ∀ t ∈ (q.settleLanded newBase k').2.2.trackers,
      t.Shows s retain { v with durable := newBase, announced := newBase } := by
  have hstored : p.store.round = v.durable := (hp.durable h.loaded).symm.trans hdurable
  have hdelivered := (rows_of_writes hcrew hrows hshows hstored hdurable h).2
  have hnew : k'.range.newBase = .ok newBase := by rw [h.range, h.lands]
  have hle : v.durable ≤ newBase := hdurable ▸ h.le
  have hwritten : ∀ t ∈ q.trackers, t.Shows s retain v :=
    h.steady.forall_trackers (fun hsteady => .of_steady hsteady) hshows
  -- The tail moves on when it hears of the landing, the durable bulletin when readers are let in.
  exact settleLanded_forall_of_ok
    (fun t fx ht hok => Member.shows_landed (k := { k' with flushed := true }) hnew hle hdelivered
      t fx ht hok)
    (fun t fx ht hok => Member.shows_released (k := { k' with flushed := true }) hnew t fx ht hok)
    (settles_of_writes h hp) hwritten

/-! ## Crews in use -/

/-- What holds of a loaded crew between two requests: the table holds its window, and what the
trackers show is fixed by the durable round, by where memory bulletins are, and by the rounds that
were delivered, of which none is above a bound. -/
structure InUse (s : Series) (retain : UInt64) (shown bound : Round) (delivered : Round → Prop)
    (p : Pipeline Own) : Prop where
  current : p.Current
  loaded : p.loaded
  crew : Crew retain p.kinds
  rows : p.store.Rows s retain
  shows : ∀ t ∈ p.trackers, t.Shows s retain ⟨p.durable, p.durable, shown, delivered⟩
  durable_le : p.durable ≤ bound
  delivered_le : ∀ r, delivered r → r ≤ bound

section InUse

variable {shown bound : Round} {delivered : Round → Prop}

theorem InUse.of_steady (h : p.InUse s retain shown bound delivered) (hsteady : p.Steady q) :
    q.InUse s retain shown bound delivered where
  current := h.current.of_steady hsteady
  loaded := hsteady.loaded ▸ h.loaded
  crew := kinds_of_steady hsteady ▸ h.crew
  rows := hsteady.store ▸ h.rows
  shows := by
    rw [hsteady.durable]
    exact hsteady.forall_trackers (fun hsteady => .of_steady hsteady) h.shows
  durable_le := hsteady.durable ▸ h.durable_le
  delivered_le := h.delivered_le

theorem InUse.of_writes (h : p.InUse s retain shown bound delivered)
    (hwrites : p.Writes k newBase k' q) :
    (q.settleLanded newBase k').2.2.InUse s retain shown bound delivered := by
  obtain ⟨hstore, hdurable, hloaded⟩ := settleLanded_frame (q := q) newBase k'
  have hstored := (h.current.durable h.loaded).symm
  have hkinds := kinds_of_steady hwrites.steady
  obtain ⟨hrows, hdelivered⟩ := rows_of_writes h.crew h.rows h.shows hstored rfl hwrites
  have hshows := shows_of_writes h.current h.crew h.rows h.shows rfl hwrites
  exact {
    current := current_settleLanded hwrites h.current
    loaded := by
      rw [hloaded, hwrites.steady.loaded]
      exact h.loaded
    crew := by
      rw [kinds_settleLanded, hkinds]
      exact h.crew
    rows := by
      rw [hstore]
      exact hrows
    shows := by
      rw [hdurable]
      exact hshows
    durable_le := by
      rw [hdurable]
      -- The new durable round was durable before or was delivered.
      rcases Nat.lt_or_ge p.durable.toNat newBase.toNat with hlt | hge
      · exact h.delivered_le newBase (hdelivered newBase hlt (Nat.le_refl _))
      · exact Nat.le_trans hge h.durable_le
    delivered_le := h.delivered_le }

/-- Whatever is asked of a crew in use, it stays so. -/
theorem InUse.of_request (h : p.InUse s retain shown bound delivered) (request : Request) :
    (request.run p).InUse s retain shown bound delivered :=
  request.run_preserves (fun hsteady h => h.of_steady hsteady)
    (fun h hwrites => h.of_writes hwrites) h

end InUse

/-! ## Blocks and loads -/

/-- A delivered block is taken by every tracker. -/
theorem shows_newBlock {r : Round} (hpos : 0 < r.toNat) (hle : v.durable ≤ r)
    (hshows : ∀ t ∈ p.trackers, t.Shows s retain v) :
    (p.newBlock (s.block r).1 (s.block r).2).1 = .ok () ∧
      ∀ t ∈ (p.newBlock (s.block r).1 (s.block r).2).2.trackers,
        t.Shows s retain (v.deliver r) := by
  exact sweep_of_forall_ok (Member.shows_newBlock hpos hle) p.trackers p.effects hshows

/-- A replay of all blocks up to the last one of the ledger delivers them. -/
theorem replay_eq_ok {height r durable announced : Round} {count : Nat}
    (hlimit : height.toNat + 1 < Round.limit) (habove : durable < r)
    (hcount : r.toNat + count = height.toNat + 1)
    (hshows : ∀ t ∈ p.trackers, t.Shows s retain ⟨durable, announced, height, (· < r)⟩) :
    ∃ q, p.replay (s.upTo height) count r = (.ok count, q) ∧
      ∀ t ∈ q.trackers, t.Shows s retain ⟨durable, announced, height, (· ≤ height)⟩ := by
  -- By induction on the blocks still to come, the invariant being that those below `r` are there.
  induction count generalizing r p with
  | zero =>
    have hdelivered : (· < r) = (· ≤ height) := by
      funext q
      rw [Round.lt_def, Round.le_def, eq_iff_iff]
      omega
    rw [hdelivered] at hshows
    exact ⟨p, rfl, hshows⟩
  | succ count ih =>
    have habove' := Round.lt_def.mp habove
    have hle : r ≤ height := Round.le_def.mpr (by omega)
    have hpos : 0 < r.toNat := by omega
    have hblock : (s.upTo height).block r = some (s.block r) := if_pos ⟨hpos, hle⟩
    obtain ⟨hok, hshows⟩ := shows_newBlock hpos (Nat.le_of_lt habove) hshows
    obtain ⟨following, hnext⟩ := Round.exists_next (r := r) (by omega)
    have hfollowing := Round.next_eq_ok_iff.mp hnext
    -- The block is below the last round of the ledger, which was announced as the latest one.
    have hprogress : Progress.deliver ⟨durable, announced, height, (· < r)⟩ r =
        ⟨durable, announced, height, (· < following)⟩ := by
      rw [Progress.deliver, Progress.mk.injEq]
      refine ⟨rfl, rfl, ?_, funext fun q => ?_⟩
      · rw [← Round.toNat_inj, Round.toNat_max, Nat.max_eq_left hle]
      · show (q = r ∨ q < r) = (q < following)
        rw [← Round.toNat_inj, Round.lt_def, Round.lt_def, eq_iff_iff]
        omega
    rw [hprogress] at hshows
    obtain ⟨q, hreplay, hq⟩ := ih (by rw [Round.lt_def]; omega) (by omega) hshows
    refine ⟨q, ?_, hq⟩
    rw [replay, hblock]
    simp only
    rcases h : p.newBlock (s.block r).1 (s.block r).2 with ⟨f | _, p₁⟩ <;> rw [h] at hok hreplay
    · cases hok
    · rw [hnext]
      simp only [hreplay]

/-- A crew over a table that holds its window loads, and then shows every block of the ledger as
delivered. -/
theorem load_eq_ok {height : Round} (hcrew : Crew retain p.kinds) (hrows : p.store.Rows s retain)
    (hle : p.store.round ≤ height) (hlimit : height.toNat + 1 < Round.limit) :
    ∃ q, p.load (s.upTo height) = (.ok (), q) ∧ ∀ t ∈ q.trackers,
      t.Shows s retain ⟨p.store.round, p.store.round, height, (· ≤ height)⟩ := by
  have hle' := Round.le_def.mp hle
  have hretain : ∀ t ∈ p.trackers, ∀ u, t = .tail u → u.retain = retain := by
    rintro t ht u rfl
    exact hcrew.retain_eq ht
  -- The trackers start from the store and hold the rows up to the durable round.
  obtain ⟨hok, hloaded⟩ : (p.ask (Tracker.load (s.upTo height) p.store p.store.round)).1 = .ok () ∧
      ∀ t ∈ (p.ask (Tracker.load (s.upTo height) p.store p.store.round)).2.trackers,
        t.Shows s retain ⟨p.store.round, p.store.round, height, (· ≤ p.store.round)⟩ :=
    sweep_of_forall_ok (Member.shows_load (s.upTo height) hrows (by omega)) p.trackers p.effects
      hretain
  obtain ⟨first, hnext⟩ := Round.exists_next (r := p.store.round) (by omega)
  have hfirst := Round.next_eq_ok_iff.mp hnext
  -- In other words, they hold what was delivered below the first replayed round.
  have hdelivered : (· ≤ p.store.round) = (· < first) :=
    funext fun q => propext (Round.lt_next_iff hnext).symm
  have hcount : first.toNat + (height.since p.store.round).toNat = height.toNat + 1 := by
    rw [Round.toNat_since]
    omega
  have habove : p.store.round < first := (Round.lt_next_iff hnext).mpr (Nat.le_refl _)
  rw [hdelivered] at hloaded
  have hnotAhead : ¬(s.upTo height).latest < p.store.round := Nat.not_lt.mpr hle
  unfold load
  simp only
  rw [if_neg hnotAhead]
  rcases h : p.ask (Tracker.load (s.upTo height) p.store p.store.round) with ⟨stop | _, p₁⟩ <;>
    rw [h] at hok hloaded
  · cases hok
  -- From there on the replay hands over one block after the other, up to the height.
  obtain ⟨q, hreplay, hq⟩ := replay_eq_ok hlimit habove hcount hloaded
  have hreplayed : p₁.replayAbove (s.upTo height) p.store.round =
      (.ok (height.since p.store.round).toNat, q) := by
    rw [replayAbove, hnext]
    exact hreplay
  simp only [hreplayed]
  exact ⟨_, rfl, hq⟩

end Pipeline

end CommitPipeline
