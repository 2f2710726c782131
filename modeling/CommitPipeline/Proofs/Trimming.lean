import Mathlib.Logic.Relation
import CommitPipeline.Proofs.Crew

/-!
# What a report lets the ledger discard

The answer to a report is the lowest round of the window that would end at the reported round. A
loaded pipeline starts from the round that is stored, though, which may be far behind the reported
one. So a ledger that discards what is below the answers still holds every block of a later replay
exactly if it was never told of a round that far ahead.

The module introduces:

* `Pipeline.report_eq_ok` — the answer of a crew to a report;
* `TrimmedRun` — a pipeline beside a ledger that discards what is below each answer;
* `trimming_safe_iff` — when such a ledger holds every block that a restart replays.
-/

namespace CommitPipeline

namespace Pipeline

variable {p : Pipeline Own} {before after : List Own} {u : Tail} {round floor : Round}

/-- A bulletin needs no more than what is needed anyway. -/
theorem needOne_bulletin (t : Own) (ht : t.IsBulletin) (c : Effects × Need)
    (hc : c.2.floor ≤ round) : needOne round (t, c) = (.ok (), t, c) := by
  obtain ⟨fx, joint⟩ := c
  have hmin : min joint.floor round = joint.floor := if_pos hc
  have hmax : max joint.lookback 0 = joint.lookback := by
    rw [← UInt64.toNat_inj, Word.toNat_max]
    exact Nat.max_zero _
  cases ht <;> simp only [needOne, Tracker.need, Member.need, hmin, hmax]

/-- What a crew needs is what its tail needs. -/
theorem needAll_eq_ok (h : Around p.trackers before u after)
    (hfloor : u.windowFloor round = .ok floor) (hle : floor ≤ round) :
    p.needAll round = (.ok ⟨floor, u.retain⟩, p) := by
  have hneed : Tracker.need round ((.tail u : Own), p.effects) =
      (.ok ⟨floor, u.retain⟩, .tail u, p.effects) := by
    show (u.need round, _, _) = _
    rw [Tail.need, hfloor]
    rfl
  -- The sweep begins with the reported round and no lookback, so both yield to those of the tail.
  have hmin : min round floor = floor := by
    rw [← Round.toNat_inj, Round.toNat_min]
    exact Nat.min_eq_right hle
  have hmax : max 0 u.retain = u.retain := by
    rw [← UInt64.toNat_inj, Word.toNat_max]
    exact Nat.zero_max _
  have htail : needOne round ((.tail u : Own), p.effects, ⟨round, 0⟩) =
      (.ok (), .tail u, p.effects, ⟨floor, u.retain⟩) := by
    simp only [needOne, hneed, hmin, hmax]
  unfold needAll
  rw [h.sweep_of_ok (I := fun c => c.2.floor ≤ round) needOne_bulletin (Nat.le_refl _) hle htail,
    ← h.split]
  rfl

/-- Where the tail is cut short, so is the crew. -/
theorem needAll_eq_error {f : Fault} (h : Around p.trackers before u after)
    (hfloor : u.windowFloor round = .error f) : (p.needAll round).1 = .error f := by
  have hneed : Tracker.need round ((.tail u : Own), p.effects) =
      (.error f, .tail u, p.effects) := by
    show (u.need round, _, _) = _
    rw [Tail.need, hfloor]
    rfl
  have htail : needOne round ((.tail u : Own), p.effects, ⟨round, 0⟩) =
      (.error f, .tail u, p.effects, ⟨round, 0⟩) := by
    simp only [needOne, hneed]
  unfold needAll
  rw [h.sweep_of_error (I := fun c => c.2.floor ≤ round) needOne_bulletin (Nat.le_refl _) htail]
  rfl

/-- What a crew makes of a range is what its tail makes of it. -/
theorem refineAll_eq (h : Around p.trackers before u after) (range : CommitRange) :
    (p.refineAll round range).1 =
      match u.refine range with
      | none => .error (.veto Tail.name)
      | some range => .ok range := by
  -- Bulletins leave a range as it is, so the sweep ends as the tail answers.
  have hidle : ∀ t : Own, t.IsBulletin → ∀ c : Effects × CommitRange, True →
      refineOne round p.durable (t, c) = (.ok (), t, c) := by
    rintro t ht ⟨fx, range⟩ -
    cases ht <;> rfl
  unfold refineAll
  cases hrefine : u.refine range with
  | none =>
    have htail : refineOne round p.durable ((.tail u : Own), p.effects, range) =
        (.error (.veto Tail.name), .tail u, p.effects, range) := by
      simp only [refineOne, Tracker.refine, Member.refine, hrefine]
      rfl
    rw [h.sweep_of_error hidle trivial htail]
    rfl
  | some range' =>
    have htail : refineOne round p.durable ((.tail u : Own), p.effects, range) =
        (.ok (), .tail u, p.effects, range') := by
      simp only [refineOne, Tracker.refine, Member.refine, hrefine]
    rw [h.sweep_of_ok hidle trivial trivial htail]
    rfl

/-- What is left of a range begins where it began and is no longer. -/
theorem le_of_refine {range range' : CommitRange} (h : u.refine range = some range') :
    range'.base = range.base ∧ range'.length.toNat ≤ range.length.toNat := by
  unfold Tail.refine at h
  obtain ⟨highest, -, rfl⟩ := Option.map_eq_some_iff.mp h
  refine ⟨rfl, ?_⟩
  show (min range.length (highest.since range.base)).toNat ≤ _
  rw [Word.toNat_min]
  exact Nat.min_le_left _ _

/-- A proposal does not end above both the durable and the committed round. -/
theorem propose_le (committed : Round) (lookback : UInt64) :
    (p.propose committed lookback).base.toNat + (p.propose committed lookback).length.toNat ≤
      max p.durable.toNat committed.toNat := by
  have hlength : (p.propose committed lookback).length.toNat ≤
      (committed.toNat - lookback.toNat) - p.durable.toNat := by
    show (min ((committed.back lookback).since p.durable) p.config.maxRounds).toNat ≤ _
    rw [Word.toNat_min, Round.toNat_since, Round.toNat_back]
    exact Nat.min_le_left _ _
  show p.durable.toNat + _ ≤ _
  omega

/-- A crew is never cut short in a negotiation. -/
theorem negotiate_ne_error (h : Around p.trackers before u after) (lookback : UInt64) (f : Fault) :
    (p.negotiate round lookback).1 ≠ .error f := by
  unfold negotiate
  simp only
  split
  · exact nofun
  have hrefine : (p.refineAll round (p.propose round lookback)).1 = _ :=
    refineAll_eq h (p.propose round lookback)
  rcases hresult : p.refineAll round (p.propose round lookback) with ⟨result, q⟩
  rw [hresult] at hrefine
  cases hnarrowed : u.refine (p.propose round lookback) with
  | none =>
    rw [hnarrowed] at hrefine
    obtain rfl : result = _ := hrefine
    exact nofun
  | some range =>
    rw [hnarrowed] at hrefine
    obtain rfl : result = _ := hrefine
    simp only
    unfold conclude
    split
    · exact nofun
    cases hnew : range.newBase with
    | ok newBase => exact nofun
    | error f' =>
      -- The end would have to be above all rounds, but it is not above the two given ones.
      have hlimit := (Round.plus_eq_error_iff.mp hnew).2
      obtain ⟨hbase, hlength⟩ := le_of_refine hnarrowed
      have hle := propose_le (p := p) round lookback
      have hdurable := p.durable.toNat_lt
      have hround := round.toNat_lt
      rw [hbase] at hlimit
      omega

/-- A crew answers a report by the floor of the window that would end at the reported round. -/
theorem report_eq_ok {retain : UInt64} (hcrew : Crew retain p.kinds)
    (hround : round.toNat + 1 < Round.limit) :
    ∃ floor, (p.report round).1 = .ok floor ∧
      floor.toNat = round.toNat + 1 - retain.toNat := by
  obtain ⟨before, u, after, haround, rfl⟩ := hcrew.exists_around
  have hpositive := u.toNat_retain_pos
  obtain ⟨floor, hfloor, htoNat⟩ := u.exists_windowFloor hround
  refine ⟨_, ?_, htoNat⟩
  have hneed := needAll_eq_ok (p := p.remember round) haround hfloor
    (Round.le_def.mpr (by omega))
  unfold report
  rw [hneed]
  simp only
  -- The negotiation may come to nothing, but it does not change the answer.
  have hschedule : ∀ f, ((p.remember round).schedule round u.retain).1 ≠ .error f := by
    intro f
    unfold schedule claimMark
    split
    · exact nofun
    · next q h =>
      split at h <;> cases h
      exact negotiate_ne_error (p := { p.remember round with inFlight := true }) haround u.retain f
  rcases h : (p.remember round).schedule round u.retain with ⟨f | _ | k, q⟩
  · exact absurd (congrArg Prod.fst h) (hschedule f)
  · rfl
  · rfl

/-- Whatever a crew answers to a report is that floor. -/
theorem toNat_of_report {retain : UInt64} (hcrew : Crew retain p.kinds)
    (h : (p.report round).1 = .ok floor) : floor.toNat = round.toNat + 1 - retain.toNat := by
  by_cases hround : round.toNat + 1 < Round.limit
  · obtain ⟨floor', hok, htoNat⟩ := report_eq_ok hcrew hround
    obtain rfl := Except.ok.inj (h.symm.trans hok)
    exact htoNat
  obtain ⟨before, u, after, haround, rfl⟩ := hcrew.exists_around
  cases hfloor : u.windowFloor round with
  | ok floor' => exact absurd (Tail.windowFloor_eq_ok_iff.mp hfloor).1 hround
  | error f =>
    have hneed := needAll_eq_error (p := p.remember round) haround hfloor
    unfold report at h
    rcases hresult : (p.remember round).needAll round with ⟨result, q⟩
    rw [hresult] at hneed h
    obtain rfl : result = _ := hneed
    exact nomatch h

end Pipeline

/-! ## A ledger that discards -/

/-- A pipeline beside a ledger that discards what the pipeline no longer asks for. -/
structure TrimmedRun where
  /-- The pipeline. -/
  pipeline : Pipeline Own
  /-- The last round that was delivered; it is the last one of the ledger. -/
  latest : Round
  /-- The lowest round that the ledger still holds. -/
  lowest : Round
  /-- The reported rounds whose answers the ledger has followed. -/
  followed : List Round

namespace TrimmedRun

/-- A run begins with a load that ends well, from a ledger that holds everything above the stored
round. -/
structure Begins (retain : UInt64) (n : TrimmedRun) : Prop where
  loaded : ∃ (start : Pipeline Own) (ledger : LedgerView),
    start.load ledger = (.ok (), n.pipeline) ∧ ledger.latest = n.latest
  crew : Crew retain n.pipeline.kinds
  lowest : n.lowest.toNat ≤ n.pipeline.store.round.toNat + 1
  followed : n.followed = []

/-- The next block is delivered. -/
def deliver (n : TrimmedRun) (block : Block) (delta : Delta) : TrimmedRun :=
  { n with pipeline := (n.pipeline.newBlock block delta).2, latest := block.round }

/-- A round is reported, and the ledger follows the answer. -/
def follow (n : TrimmedRun) (round floor : Round) : TrimmedRun :=
  { n with
    pipeline := (n.pipeline.report round).2
    lowest := max n.lowest floor
    followed := round :: n.followed }

/-- What may happen: the next round is delivered, a delivered round is reported and the ledger
discards everything below the answer, or anything else is asked of the pipeline. -/
inductive Step : TrimmedRun → TrimmedRun → Prop
  | deliver {n : TrimmedRun} {block : Block} {delta : Delta}
      (hnext : n.latest.next = .ok block.round) : Step n (n.deliver block delta)
  | trim {n : TrimmedRun} {round floor : Round} (hdelivered : round ≤ n.latest)
      (hanswer : (n.pipeline.report round).1 = .ok floor) : Step n (n.follow round floor)
  | faulted {n : TrimmedRun} {round : Round} {f : Fault} (hdelivered : round ≤ n.latest)
      (hanswer : (n.pipeline.report round).1 = .error f) :
      Step n { n with pipeline := (n.pipeline.report round).2 }
  | other {n : TrimmedRun} {request : Request} (hother : ∀ round, request ≠ .report round) :
      Step n { n with pipeline := request.run n.pipeline }

/-- What may become of a run. -/
def Reachable (retain : UInt64) (n : TrimmedRun) : Prop :=
  ∃ first, Begins retain first ∧ Relation.ReflTransGen Step first n

/-- What holds throughout a run: everything below the followed answers is discarded, and nothing
else above the round that follows the stored one. -/
structure Kept (retain : UInt64) (n : TrimmedRun) : Prop where
  current : n.pipeline.Current
  crew : Crew retain n.pipeline.kinds
  followed : ∀ round ∈ n.followed,
    round ≤ n.latest ∧ round.toNat + 1 - retain.toNat ≤ n.lowest.toNat
  lowest : n.lowest.toNat ≤ n.pipeline.store.round.toNat + 1 ∨
    ∃ round ∈ n.followed, n.lowest.toNat = round.toNat + 1 - retain.toNat

variable {retain : UInt64} {n n' : TrimmedRun}

/-- Nothing more was followed: the pipeline went on, and the ledger may have grown. -/
theorem Kept.of_run (h : n.Kept retain) (operation : Operation) {latest : Round}
    (hlatest : n.latest ≤ latest) :
    Kept retain { n with pipeline := operation.run n.pipeline, latest } := by
  have hadvance := operation.advances_run h.current
  -- The stored round only rises, so the ledger holds no less of what a restart needs.
  refine ⟨hadvance.current, ?_, fun round hround => ?_, ?_⟩
  · show Crew retain (operation.run n.pipeline).kinds
    rw [operation.kinds_run]
    exact h.crew
  · obtain ⟨hdelivered, hlow⟩ := h.followed round hround
    exact ⟨Nat.le_trans hdelivered hlatest, hlow⟩
  · exact h.lowest.imp_left fun hle =>
      Nat.le_trans hle (Nat.add_le_add_right hadvance.round_le 1)

theorem kept_step (h : n.Kept retain) (hstep : n.Step n') : n'.Kept retain := by
  cases hstep with
  | @deliver block delta hnext =>
    exact h.of_run (.newBlock block delta) (Nat.le.intro (Round.next_eq_ok_iff.mp hnext))
  | @faulted round _ _ _ => exact h.of_run (.request (.report round)) (Nat.le_refl _)
  | @other request _ => exact h.of_run (.request request) (Nat.le_refl _)
  | @trim round floor hdelivered hanswer =>
    have hfloor := Pipeline.toNat_of_report h.crew hanswer
    have hkept := h.of_run (.request (.report round)) (Nat.le_refl _)
    have hmax : (n.follow round floor).lowest.toNat = max n.lowest.toNat floor.toNat :=
      Round.toNat_max _ _
    refine ⟨hkept.current, hkept.crew, fun other hother => ?_, ?_⟩ <;> rw [hmax]
    · show other ≤ n.latest ∧ _
      rcases List.mem_cons.mp hother with rfl | hother
      · exact ⟨hdelivered, hfloor ▸ Nat.le_max_right _ _⟩
      obtain ⟨hearlier, hlow⟩ := h.followed other hother
      exact ⟨hearlier, Nat.le_trans hlow (Nat.le_max_left _ _)⟩
    · rcases Nat.le_total floor.toNat n.lowest.toNat with hle | hle
      · -- The answer discards nothing that was still held.
        rw [Nat.max_eq_left hle]
        refine hkept.lowest.imp_right ?_
        rintro ⟨other, hother, hlow⟩
        exact ⟨other, List.mem_cons_of_mem _ hother, hlow⟩
      · rw [Nat.max_eq_right hle]
        exact .inr ⟨round, List.mem_cons_self, hfloor⟩

theorem kept_begins (h : Begins retain n) : n.Kept retain := by
  obtain ⟨start, ledger, hload, -⟩ := h.loaded
  obtain ⟨hcurrent, -⟩ := Pipeline.current_of_load hload
  refine ⟨hcurrent, h.crew, fun round hround => ?_, .inl h.lowest⟩
  rw [h.followed] at hround
  exact nomatch hround

theorem kept_of_reachable (h : Reachable retain n) : n.Kept retain := by
  obtain ⟨first, hfirst, hsteps⟩ := h
  induction hsteps with
  | refl => exact kept_begins hfirst
  | tail _ hstep ih => exact kept_step ih hstep

/-- The ledger holds every block that a restart replays exactly if no report was followed that is
ahead of the stored round by more than the tail retains. -/
theorem Kept.holds_iff (h : n.Kept retain) (hretain : 0 < retain.toNat) :
    (∀ r, n.pipeline.store.round < r → r ≤ n.latest → n.lowest ≤ r) ↔
      ∀ round ∈ n.followed, round.toNat ≤ n.pipeline.store.round.toNat + retain.toNat := by
  constructor
  · intro hholds round hround
    obtain ⟨hdelivered, hlow⟩ := h.followed round hround
    by_contra hahead
    -- The first block to be replayed was delivered before the reported one and is discarded.
    have hdelivered := Round.le_def.mp hdelivered
    have hlimit := round.toNat_lt
    obtain ⟨first, hnext⟩ := Round.exists_next (r := n.pipeline.store.round) (by omega)
    have hfirst := Round.next_eq_ok_iff.mp hnext
    have hle : n.lowest.toNat ≤ first.toNat :=
      hholds first ((Round.lt_next_iff hnext).mpr (Nat.le_refl _)) (Round.le_def.mpr (by omega))
    omega
  · intro hfollowed r hstored _
    have hstored := Round.lt_def.mp hstored
    refine Round.le_def.mpr ?_
    rcases h.lowest with hlow | ⟨round, hround, hlow⟩
    · omega
    · have := hfollowed round hround
      omega

end TrimmedRun

/-- A ledger that discards what is below each answer still holds every block that a restart replays
exactly if no report was followed that is further ahead of the stored round than the tail retains.
The answer is the floor of the window that ends at the reported round, so it too is above the first
round to be replayed exactly for such a report. -/
theorem trimming_safe_iff {retain : UInt64} {n : TrimmedRun} (hn : n.Reachable retain) :
    ((∀ r, n.pipeline.store.round < r → r ≤ n.latest → n.lowest ≤ r) ↔
        ∀ round ∈ n.followed, round.toNat ≤ n.pipeline.store.round.toNat + retain.toNat) ∧
      ∀ round, round.toNat + 1 < Round.limit →
        ∃ floor, (n.pipeline.report round).1 = .ok floor ∧
          floor.toNat = round.toNat + 1 - retain.toNat ∧
          (floor.toNat ≤ n.pipeline.store.round.toNat + 1 ↔
            round.toNat ≤ n.pipeline.store.round.toNat + retain.toNat) := by
  have hkept := TrimmedRun.kept_of_reachable hn
  refine ⟨hkept.holds_iff hkept.crew.retain_pos, fun round hround => ?_⟩
  obtain ⟨floor, hok, htoNat⟩ := Pipeline.report_eq_ok hkept.crew hround
  refine ⟨floor, hok, htoNat, ?_⟩
  omega

/-- A ledger without blocks. -/
def emptyLedger : LedgerView := { latest := .zero, block := fun _ => none }

/-- A crew over an empty store whose tail retains one round. -/
def shortCrew : Pipeline Own :=
  { trackers := [.memory {}, .durable {}, .tail (.keeping 1)], config := {}, store := .empty }

/-- The crew after a load from a ledger without blocks. -/
def emptyRun : TrimmedRun where
  pipeline := (Operation.load emptyLedger).run shortCrew
  latest := .zero
  lowest := .zero
  followed := []

/-- A block without transactions. -/
def emptyBlock (round : Round) : Block := ⟨⟨round, .zero, 0⟩, []⟩

/-- The run after two blocks. -/
def grownRun : TrimmedRun :=
  (emptyRun.deliver (emptyBlock ⟨1⟩) (.empty ⟨1⟩)).deliver (emptyBlock ⟨2⟩) (.empty ⟨2⟩)

/-- Two blocks are delivered and reported before any cycle runs. Nothing is stored yet, and the
ledger has discarded the first block. -/
theorem trimming_discards_unstored :
    (grownRun.follow ⟨2⟩ ⟨2⟩).Reachable 1 ∧
      ¬∀ r, (grownRun.follow ⟨2⟩ ⟨2⟩).pipeline.store.round < r →
        r ≤ (grownRun.follow ⟨2⟩ ⟨2⟩).latest → (grownRun.follow ⟨2⟩ ⟨2⟩).lowest ≤ r := by
  have hcrew : Crew 1 emptyRun.pipeline.kinds :=
    show [Kind.memory, .durable, .tail 1].Perm [.tail 1, .memory, .durable] by decide
  have hbegins : emptyRun.Begins 1 :=
    ⟨⟨shortCrew, emptyLedger, Prod.ext rfl rfl, rfl⟩, hcrew, by decide, rfl⟩
  have hfirst := @TrimmedRun.Step.deliver emptyRun (emptyBlock ⟨1⟩) (.empty ⟨1⟩) rfl
  have hsecond := @TrimmedRun.Step.deliver (emptyRun.deliver (emptyBlock ⟨1⟩) (.empty ⟨1⟩))
    (emptyBlock ⟨2⟩) (.empty ⟨2⟩) rfl
  have htrim := @TrimmedRun.Step.trim grownRun ⟨2⟩ ⟨2⟩ (by decide) rfl
  have hreachable : (grownRun.follow ⟨2⟩ ⟨2⟩).Reachable 1 :=
    ⟨emptyRun, hbegins, .head hfirst (.head hsecond (.single htrim))⟩
  refine ⟨hreachable, fun hholds => ?_⟩
  have hstored := (trimming_safe_iff hreachable).1.mp hholds ⟨2⟩ (List.mem_singleton_self _)
  exact absurd hstored (by decide)

end CommitPipeline
