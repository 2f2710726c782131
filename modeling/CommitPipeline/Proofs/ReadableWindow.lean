import CommitPipeline.Proofs.Deliveries
import CommitPipeline.Proofs.Restart

/-!
# The readable window of the tail

A crew over a database that only such crews have written, all of them retaining the same number of
rounds, is given the blocks of a series one after the other. Whatever becomes of its cycles, the
tail answers for the rounds of one window and for no other: from the lowest round that is kept at
the durable round up to the last round that was delivered.

The module introduces:

* `LedgerView.Serves` — a ledger of which every block belongs to a series;
* `Feed`, `Feed.Step`, `Feed.Reachable` — a crew with the last round that was delivered, and what
  may become of it;
* `Feed.Kept` — what holds of it at all times;
* `readable_window` — what the tail has in memory, and what it answers.
-/

namespace CommitPipeline

/-- Every block that the ledger holds is that of the series. -/
def LedgerView.Serves (s : Series) (ledger : LedgerView) : Prop :=
  ∀ r entry, ledger.block r = some entry → entry = s.block r

/-- The ledger holds the blocks of the series up to its height. -/
theorem Series.serves_upTo (s : Series) (height : Round) : (s.upTo height).Serves s := by
  intro r entry hentry
  obtain ⟨-, hblock⟩ := Option.ite_none_right_eq_some.mp hentry
  exact (Option.some.inj hblock).symm

/-- The round of the last block that reached the tail, or the durable round if none did. -/
def lastRound (durable : Round) : List Block → Round
  | [] => durable
  | block :: _ => block.round

/-- The round delivered last is that of the last block. -/
theorem lastRound_append (durable : Round) (blocks : List Block) (block : Block) :
    lastRound durable (blocks ++ [block]) = lastRound block.round blocks := by
  cases blocks <;> rfl

/-- The lowest round that is kept once `durable` is durable. There is no round zero to be kept. -/
def lowestKept (retain : UInt64) (durable : Round) : Nat :=
  max 1 (durable.toNat + 1 - retain.toNat)

/-- The window begins at the lowest round that is kept. -/
theorem inWindow_iff {retain : UInt64} {durable r : Round} :
    InWindow retain durable r ↔ lowestKept retain durable ≤ r.toNat := by
  unfold InWindow lowestKept
  omega

/-! ## Blocks one after the other -/

namespace Pipeline

variable {s : Series} {retain : UInt64} {p q : Pipeline Own} {durable announced n r : Round}

/-- What a crew shows at a durable round, once everything up to a round was delivered. Where memory
bulletins start depends on the ledger; nothing is said of them. -/
def ShowsUpTo (s : Series) (retain : UInt64) (durable n : Round) (p : Pipeline Own) : Prop :=
  ∃ latest, ∀ t ∈ p.trackers, t.Shows s retain ⟨durable, durable, latest, (· ≤ n)⟩

/-- The next block is taken by every tracker. -/
theorem showsUpTo_newBlock (hnext : n.next = .ok r) (hle : durable ≤ n)
    (h : p.ShowsUpTo s retain durable n) :
    (p.newBlock (s.block r).1 (s.block r).2).1 = .ok () ∧
      (p.newBlock (s.block r).1 (s.block r).2).2.ShowsUpTo s retain durable r := by
  obtain ⟨latest, hshows⟩ := h
  have hr := Round.next_eq_ok_iff.mp hnext
  have hle := Round.le_def.mp hle
  have hbelow : durable ≤ r := Round.le_def.mpr (by omega)
  obtain ⟨hok, hshows⟩ := shows_newBlock (by omega) hbelow hshows
  refine ⟨hok, max latest r, ?_⟩
  intro t ht
  refine (hshows t ht).congr ?_
  intro q _
  show q = r ∨ q ≤ n ↔ q ≤ r
  rw [← Round.toNat_inj, Round.le_def, Round.le_def]
  omega

/-- A replay that ends well delivers the blocks that it hands on, whether it came to the end of the
ledger or to a gap. -/
theorem showsUpTo_replay {ledger : LedgerView} {count handed : Nat} (hserves : ledger.Serves s)
    (hnext : n.next = .ok r) (hle : durable ≤ n) (h : p.ShowsUpTo s retain durable n)
    (hreplay : p.replay ledger count r = (.ok handed, q)) :
    n ≤ lastRound n (p.replayHanded ledger count r) ∧
      q.ShowsUpTo s retain durable (lastRound n (p.replayHanded ledger count r)) := by
  -- By induction on the blocks still to come; `n` is the last round that was delivered so far.
  induction count generalizing n r p handed with
  | zero =>
    obtain rfl : p = q := congrArg Prod.snd hreplay
    exact ⟨Nat.le_refl _, h⟩
  | succ count ih =>
    unfold replay at hreplay
    unfold replayHanded
    cases hblock : ledger.block r with
    | none =>
      rw [hblock] at hreplay
      obtain rfl : p.log (.blockMissing r) = q := congrArg Prod.snd hreplay
      exact ⟨Nat.le_refl _, h⟩
    | some entry =>
      obtain rfl := hserves r entry hblock
      obtain ⟨hok, hshows⟩ := showsUpTo_newBlock hnext hle h
      have hhanded := handed_of_ok hok
      rw [hblock] at hreplay
      simp only at hreplay ⊢
      rcases hnew : p.newBlock (s.block r).1 (s.block r).2 with ⟨f | _, p₁⟩ <;>
        rw [hnew] at hok hshows hreplay
      · cases hok
      cases hfollowing : r.next with
      | error f =>
        rw [hfollowing] at hreplay
        cases congrArg Prod.fst hreplay
      | ok following =>
        rw [hfollowing] at hreplay
        simp only at hreplay ⊢
        rcases hrest : p₁.replay ledger count following with ⟨f | handed', q'⟩ <;>
          rw [hrest] at hreplay
        · cases congrArg Prod.fst hreplay
        obtain rfl : q' = q := congrArg Prod.snd hreplay
        have hr := Round.next_eq_ok_iff.mp hnext
        have hle' : n ≤ r := Round.le_def.mpr (by omega)
        rw [hhanded, lastRound_append, s.round_block]
        obtain ⟨hlater, hshown⟩ := ih hfollowing (Nat.le_trans hle hle') hshows hrest
        exact ⟨Nat.le_trans hle' hlater, hshown⟩

/-- A crew over a table that holds its window, after a load that ended well: everything is delivered
up to the last block that was replayed. -/
theorem showsUpTo_load {ledger : LedgerView} (hcrew : Crew retain p.kinds)
    (hrows : p.store.Rows s retain) (hserves : ledger.Serves s)
    (hload : p.load ledger = (.ok (), q)) :
    p.store.round ≤ lastRound p.store.round (p.loadHanded ledger) ∧
      q.ShowsUpTo s retain p.store.round (lastRound p.store.round (p.loadHanded ledger)) := by
  obtain ⟨hbehind, p₁, p₂, replayed, hstarted, hreplayed, rfl⟩ := steps_of_load hload
  have hretain : ∀ t ∈ p.trackers, ∀ u, t = .tail u → u.retain = retain := by
    rintro t ht u rfl
    exact hcrew.retain_eq ht
  unfold replayAbove at hreplayed
  cases hfirst : p.store.round.next with
  | error f =>
    rw [hfirst] at hreplayed
    cases congrArg Prod.fst hreplayed
  | ok first =>
    rw [hfirst] at hreplayed
    have hlimit : p.store.round.toNat + 1 < Round.limit := by
      rw [Round.next_eq_ok_iff.mp hfirst]
      exact first.toNat_lt
    -- Before the replay everybody is at the stored round, the tail with the rows of its window.
    have hshows : p₁.ShowsUpTo s retain p.store.round p.store.round := by
      have hasked := (sweep_of_forall_ok (Member.shows_load ledger hrows hlimit) p.trackers
        p.effects hretain).2
      obtain rfl := congrArg Prod.snd hstarted
      exact ⟨ledger.latest, hasked⟩
    have hhanded : p.loadHanded ledger =
        p₁.replayHanded ledger (ledger.latest.since p.store.round).toNat first := by
      have hnotAhead : ¬ledger.latest < p.store.round := Nat.not_lt.mpr hbehind
      unfold loadHanded
      rw [if_neg hnotAhead, hstarted, hfirst]
    have hreplay := showsUpTo_replay hserves hfirst (Nat.le_refl _) hshows hreplayed
    rw [hhanded]
    exact hreplay

end Pipeline

/-! ## A crew in use -/

/-- A crew in use, with the last round that was delivered to it. -/
structure Feed where
  /-- The pipeline over the crew. -/
  pipeline : Pipeline Own
  /-- The last round that was delivered, the durable round if there was none since the load. -/
  latest : Round

namespace Feed

/-- A session over a database begins by a load that ends well, from any ledger of the series; blocks
may be missing in it. -/
inductive Starts (s : Series) (retain : UInt64) (store : Store) : Feed → Prop
  | load {start p : Pipeline Own} {ledger : LedgerView} (hcrew : Crew retain start.kinds)
      (hstore : start.store = store) (hserves : ledger.Serves s)
      (hload : start.load ledger = (.ok (), p)) :
      Starts s retain store ⟨p, lastRound store.round (start.loadHanded ledger)⟩

/-- The block of a round is delivered. -/
def deliver (s : Series) (f : Feed) (r : Round) : Feed :=
  ⟨(f.pipeline.newBlock (s.block r).1 (s.block r).2).2, r⟩

/-- What may become of a crew in use: the next block is delivered, something is asked of it, or
another session follows. One that crashed left either what was there before a request or what the
request committed, so the next one begins as if this one had been stopped. -/
inductive Step (s : Series) (retain : UInt64) : Feed → Feed → Prop
  | deliver {f : Feed} {r : Round} (hnext : f.latest.next = .ok r) : Step s retain f (f.deliver s r)
  | request (f : Feed) (request : Request) :
      Step s retain f { f with pipeline := request.run f.pipeline }
  | restart {f f' : Feed} (hstarts : Starts s retain f.pipeline.store f') : Step s retain f f'

/-- What may become of an empty database. -/
def Reachable (s : Series) (retain : UInt64) (f : Feed) : Prop :=
  ∃ first, Starts s retain .empty first ∧ Relation.ReflTransGen (Step s retain) first f

/-- What holds of a crew in use at all times. Where its memory bulletin is, depends on the
ledgers. -/
def Kept (s : Series) (retain : UInt64) (f : Feed) : Prop :=
  ∃ shown, f.pipeline.InUse s retain shown f.latest (· ≤ f.latest)

variable {s : Series} {retain : UInt64} {f f' : Feed}

/-- The invariant holds behind a start from rows of the series. -/
theorem kept_starts {store : Store} (hrows : store.Rows s retain) (h : Starts s retain store f) :
    f.Kept s retain := by
  cases h with
  | @load start p ledger hcrew hstarted hserves hload =>
    subst hstarted
    obtain ⟨hcurrent, hloaded, -⟩ := Pipeline.current_of_load hload
    have hstore := (Pipeline.load_frame ledger start).1
    have hkinds := Pipeline.kinds_load ledger start
    rw [hload] at hstore hkinds
    have hstore : p.store = start.store := hstore
    have hdurable : p.durable = start.store.round := hstore ▸ hcurrent.durable hloaded
    obtain ⟨hle, shown, hshows⟩ := Pipeline.showsUpTo_load hcrew hrows hserves hload
    rw [← hdurable] at hle hshows
    rw [← hdurable]
    refine ⟨shown, hcurrent, hloaded, ?_, ?_, hshows, hle, fun _ hr => hr⟩
    · exact hkinds ▸ hcrew
    · exact hstore ▸ hrows

/-- A delivery of the next round keeps it: the window grows at its upper end. -/
theorem kept_deliver {r : Round} (h : f.Kept s retain) (hnext : f.latest.next = .ok r) :
    (f.deliver s r).Kept s retain := by
  obtain ⟨shown, h⟩ := h
  obtain ⟨-, shown', hshows⟩ :=
    Pipeline.showsUpTo_newBlock hnext h.durable_le ⟨shown, h.shows⟩
  have hkinds : (f.deliver s r).pipeline.kinds = f.pipeline.kinds :=
    Pipeline.kinds_ask (Member.kind_newBlock _ _)
  have hr := Round.next_eq_ok_iff.mp hnext
  have hle : f.latest ≤ r := Round.le_def.mpr (by omega)
  refine ⟨shown', Pipeline.current_newBlock _ _ h.current, h.loaded, ?_, h.rows, hshows, ?_, ?_⟩
  · exact hkinds ▸ h.crew
  · exact Nat.le_trans h.durable_le hle
  · exact fun _ hq => hq

/-- Every step keeps it. -/
theorem kept_step (h : f.Kept s retain) (hstep : Step s retain f f') : f'.Kept s retain := by
  cases hstep with
  | deliver hnext => exact kept_deliver h hnext
  | request request =>
    obtain ⟨shown, h⟩ := h
    exact ⟨shown, h.of_request request⟩
  | restart hstarts =>
    obtain ⟨shown, h⟩ := h
    exact kept_starts h.rows hstarts

/-- So it holds wherever steps lead, by induction on them. -/
theorem kept_of_reachable (h : f.Reachable s retain) : f.Kept s retain := by
  obtain ⟨first, hfirst, hrun⟩ := h
  induction hrun with
  | refl => exact kept_starts Node.rows_empty hfirst
  | tail _ hstep ih => exact kept_step ih hstep

/-- What the tail of a crew has in memory: the window, up to the last round that was delivered. -/
theorem Kept.get?_entries (h : f.Kept s retain) {u : Tail} (hu : .tail u ∈ f.pipeline.trackers)
    (r : Round) :
    u.entries.get? r =
      if lowestKept retain f.pipeline.durable ≤ r.toNat ∧ r ≤ f.latest then some (s.summary r)
      else none := by
  obtain ⟨shown, h⟩ := h
  obtain ⟨-, hentries⟩ : u.Shows s retain _ := h.shows (.tail u) hu
  apply Option.ext
  intro sm
  rw [hentries r sm, inWindow_iff, Option.ite_none_right_eq_some, Option.some.injEq]
  -- What is durable was delivered, in this session or before.
  have hheld : r ≤ f.pipeline.durable ∨ r ≤ f.latest ↔ r ≤ f.latest :=
    or_iff_right_of_imp fun hr => Nat.le_trans hr h.durable_le
  simp only [hheld]
  constructor
  · rintro ⟨rfl, hin⟩
    exact ⟨hin, rfl⟩
  · rintro ⟨hin, rfl⟩
    exact ⟨rfl, hin⟩

end Feed

/-- Let a database that was empty at first be used by crews whose tails retain the same number of
rounds, session after session, and let each of them be given the blocks of a series one after the
other, by the replay of its load and from then on. Whatever is asked of it, and however its cycles
end, the tail has in memory the rounds from the lowest one that is kept at the durable round up to
the last one that was delivered, in this order, and it answers for these rounds, by the summary of
the block of the series, and for no other. -/
theorem readable_window {s : Series} {retain : UInt64} {f : Feed} (hf : f.Reachable s retain)
    {u : Tail} (hu : .tail u ∈ f.pipeline.trackers) :
    u.entries.rounds.map Round.toNat =
        List.range' (lowestKept retain f.pipeline.durable)
          (f.latest.toNat + 1 - lowestKept retain f.pipeline.durable) ∧
      ∀ r, u.entry f.pipeline.store r =
        .ok (if lowestKept retain f.pipeline.durable ≤ r.toNat ∧ r ≤ f.latest then
          some (s.summary r) else none) := by
  have hkept := Feed.kept_of_reachable hf
  have hget := hkept.get?_entries hu
  refine ⟨?_, ?_⟩
  · apply RoundTable.rounds_eq_range' f.latest.toNat_lt
    intro r
    rw [hget, ← Round.le_def]
    split <;> simp [*]
  · intro r
    unfold Tail.entry
    rw [hget]
    by_cases hin : lowestKept retain f.pipeline.durable ≤ r.toNat ∧ r ≤ f.latest
    · simp only [if_pos hin]
    -- The store has rows of rounds that are in memory as well, and of no others.
    · obtain ⟨shown, hkept⟩ := hkept
      have hrow : f.pipeline.store.get? tailTable r = none := by
        rw [Option.eq_none_iff_forall_ne_some]
        intro row hrow
        obtain ⟨-, hwindow, hle⟩ := (hkept.rows r row).mp hrow
        rw [← hkept.current.durable hkept.loaded] at hwindow hle
        exact hin ⟨inWindow_iff.mp hwindow, Nat.le_trans hle hkept.durable_le⟩
      simp only [if_neg hin, hrow]

/-- A crew that was given two blocks by its load and two after it, of which three become durable. -/
def fedOnce : Feed :=
  let start : Feed := ⟨((newCrew .empty).load (plainSeries.upTo ⟨2⟩)).2, ⟨2⟩⟩
  let supplied := (start.deliver plainSeries ⟨3⟩).deliver plainSeries ⟨4⟩
  { supplied with
    pipeline := (Request.commit ⟨⟨.zero, 3, 0⟩, ⟨4⟩, false⟩).run supplied.pipeline }

/-- A ledger that has lost every block but one. -/
def gappedLedger : LedgerView where
  latest := ⟨6⟩
  block r := if r = ⟨4⟩ then some (plainSeries.block r) else none

/-- The crew that follows, which is loaded from that ledger. -/
def fedTwice : Feed := ⟨((newCrew fedOnce.pipeline.store).load gappedLedger).2, ⟨4⟩⟩

/-- Three rounds are durable and one more was replayed before a gap. The tail retains two rounds, so
it answers for the two below the fourth round and for that one. -/
theorem readable_window_gapped :
    ∃ u, .tail u ∈ fedTwice.pipeline.trackers ∧
      u.entries.rounds.map Round.toNat = [2, 3, 4] ∧
      u.entry fedTwice.pipeline.store ⟨1⟩ = .ok none ∧
      u.entry fedTwice.pipeline.store ⟨2⟩ = .ok (some (plainSeries.summary ⟨2⟩)) := by
  have hcrew : ∀ store, Crew 2 (newCrew store).kinds := fun _ =>
    show [Kind.memory, .durable, .tail 2].Perm [.tail 2, .memory, .durable] by decide
  have hserves : gappedLedger.Serves plainSeries := by
    intro r entry hentry
    obtain ⟨-, hblock⟩ := Option.ite_none_right_eq_some.mp hentry
    exact (Option.some.inj hblock).symm
  obtain ⟨u, hu⟩ : ∃ u, .tail u ∈ fedTwice.pipeline.trackers :=
    ⟨_, List.mem_cons_of_mem _ (List.mem_cons_of_mem _ List.mem_cons_self)⟩
  have hstart := @Feed.Starts.load plainSeries 2 .empty (newCrew .empty) _ _ (hcrew .empty) rfl
    (plainSeries.serves_upTo ⟨2⟩) (Prod.ext rfl rfl)
  have hthird := fun f hnext => @Feed.Step.deliver plainSeries 2 f ⟨3⟩ hnext
  have hfourth := fun f hnext => @Feed.Step.deliver plainSeries 2 f ⟨4⟩ hnext
  have hcommit := fun f => @Feed.Step.request plainSeries 2 f
    (.commit ⟨⟨.zero, 3, 0⟩, ⟨4⟩, false⟩)
  have hrestart := @Feed.Step.restart plainSeries 2 fedOnce fedTwice
    (@Feed.Starts.load plainSeries 2 _ (newCrew fedOnce.pipeline.store) _ _ (hcrew _) rfl hserves
      (Prod.ext rfl rfl))
  have hreachable : fedTwice.Reachable plainSeries 2 :=
    ⟨_, hstart, .head (hthird _ rfl) (.head (hfourth _ rfl) (.head (hcommit _)
      (.single hrestart)))⟩
  obtain ⟨hrounds, hentry⟩ := readable_window hreachable hu
  exact ⟨u, hu, hrounds, hentry ⟨1⟩, hentry ⟨2⟩⟩

end CommitPipeline
