import CommitPipeline.Tracker.Tail
import Mathlib.Data.List.Sort
import Mathlib.Logic.Basic

/-!
# The phases of the block tail

What each phase of a cycle does to the block tail and to its table, said once for the proofs about
windows and restarts:

* `windowFloor_eq_ok_iff` — the floor of a window in numbers;
* `stage_eq_ok_iff`, `collect_spec` — the rows picked for a range are the summaries in memory;
* `Stageable`, `stage_cases` — ranges in which a tail objects at most to a round it does not hold;
* `CutsShort`, `fault_of_stage`, `fault_of_writeStaged` — where a tail is cut short;
* `writeStaged_eq_ok_iff`, `get?_putRows`, `get?_writeStaged` — what a written range leaves in the
  table;
* `advance_eq_ok_iff` — the window after a range has landed;
* `decodeRows_cases`, `Misshapen`, `reload_cases` — which rows are read back, and how a start from a
  store ends;
* `rounds_eq_range'` — the rounds of a table that holds a window.
-/

namespace CommitPipeline

namespace Word

theorem toNat_min (a b : UInt64) : (min a b).toNat = min a.toNat b.toNat := by
  show (if a ≤ b then a else b).toNat = _
  by_cases h : a ≤ b
  · rw [if_pos h, Nat.min_eq_left (UInt64.le_iff_toNat_le.mp h)]
  · rw [if_neg h, Nat.min_eq_right]
    exact Nat.le_of_not_le fun hle => h (UInt64.le_iff_toNat_le.mpr hle)

theorem toNat_max (a b : UInt64) : (max a b).toNat = max a.toNat b.toNat := by
  show (if a ≤ b then b else a).toNat = _
  by_cases h : a ≤ b
  · rw [if_pos h, Nat.max_eq_right (UInt64.le_iff_toNat_le.mp h)]
  · rw [if_neg h, Nat.max_eq_left]
    exact Nat.le_of_not_le fun hle => h (UInt64.le_iff_toNat_le.mpr hle)

end Word

/-- A table that holds the rounds from `lo` to `hi` and no other holds each of them once, in
ascending order. -/
theorem RoundTable.rounds_eq_range' {α : Type} {t : RoundTable α} {lo hi : Nat}
    (hhi : hi < Round.limit) (h : ∀ r, (t.get? r).isSome ↔ lo ≤ r.toNat ∧ r.toNat ≤ hi) :
    t.rounds.map Round.toNat = List.range' lo (hi + 1 - lo) := by
  have hascending : (t.rounds.map Round.toNat).Pairwise (· < ·) := by
    rw [rounds, List.map_map]
    exact List.Pairwise.map _ (fun _ _ hlt => hlt) t.ascending
  -- Both lists ascend, so all that matters is what is in them.
  apply hascending.eq_of_mem_iff List.pairwise_lt_range'
  intro n
  rw [List.mem_map, List.mem_range'_1]
  constructor
  · rintro ⟨r, hr, rfl⟩
    have hin := (h r).mp (Option.isSome_iff_exists.mpr (mem_rounds_iff.mp hr))
    omega
  · intro hn
    have hround : (Round.ofNat n).toNat = n := Round.toNat_ofNat_of_lt (by omega)
    have hheld := (h (.ofNat n)).mpr (by omega)
    exact ⟨.ofNat n, mem_rounds_iff.mpr (Option.isSome_iff_exists.mp hheld), hround⟩

namespace Summary

theorem length_encode (s : Summary) : s.encode.length = encodedLength := by
  simp [encode, s.digest.length_bytes, encodedLength]

/-- A row that was written is read back as the summary it was written for. -/
theorem decode_encode (s : Summary) : decode s.encode = .ok s := by
  have hdigest : s.digest.bytes.length = 32 := s.digest.length_bytes
  -- The fields stand one after the other in fixed widths, so each is cut out where it was put.
  have htake : s.encode.take 32 = s.digest.bytes := by
    simp [encode, hdigest]
  have htime : (s.encode.drop 32).take 8 = BigEndian.ofWord s.timestamp := by
    rw [encode, List.append_assoc, List.drop_append_of_le_length (by omega),
      List.drop_eq_nil_of_le (by omega), List.nil_append, BigEndian.ofWord]
    exact List.take_left' (by simp)
  have hcount : s.encode.drop 40 = BigEndian.encode 4 s.txnCount.toNat := by
    rw [encode]
    exact List.drop_left' (by simp [hdigest])
  have hdecoded : BigEndian.decode (BigEndian.encode 4 s.txnCount.toNat) = s.txnCount.toNat :=
    BigEndian.decode_encode_of_lt s.txnCount.toNat_lt
  rw [decode, dif_pos s.length_encode]
  simp [htake, htime, hcount, BigEndian.decode_ofWord, hdecoded]

theorem exists_decode {row : Bytes} (hlength : row.length = encodedLength) :
    ∃ s, decode row = .ok s := by
  rw [decode, dif_pos hlength]
  exact ⟨_, rfl⟩

theorem decode_of_length_ne {row : Bytes} (hlength : row.length ≠ encodedLength) :
    decode row = .error (.summaryLength row.length encodedLength) :=
  dif_neg hlength

/-- Ascending rows are read, each for its round, up to the first one of another length. -/
theorem decodeRows_cases {rows : List (Round × Bytes)} (hrows : rows.Pairwise (·.1 < ·.1)) :
    (∃ entries, decodeRows rows = .ok entries ∧ (∀ row ∈ rows, row.2.length = encodedLength) ∧
        ∀ q s, entries.get? q = some s ↔ ∃ row, (q, row) ∈ rows ∧ decode row = .ok s) ∨
      ∃ before r row after, rows = before ++ (r, row) :: after ∧
        (∀ row ∈ before, row.2.length = encodedLength) ∧ row.length ≠ encodedLength ∧
        decodeRows rows = .error (.summaryLength row.length encodedLength) := by
  induction rows with
  | nil => exact .inl ⟨.empty, rfl, nofun, by simp⟩
  | cons head rest ih =>
    obtain ⟨r, row⟩ := head
    obtain ⟨hbelow, hrest⟩ := List.pairwise_cons.1 hrows
    by_cases hlength : row.length = encodedLength
    swap
    · refine .inr ⟨[], r, row, rest, rfl, nofun, hlength, ?_⟩
      rw [decodeRows, decode_of_length_ne hlength]
    obtain ⟨s, hs⟩ := exists_decode hlength
    obtain ⟨entries, hread, hall, hget⟩ | ⟨before, q, bad, after, hsplit, hbefore, hbad, hread⟩ :=
      ih hrest
    · refine .inl ⟨entries.insert r s, ?_, List.forall_mem_cons.2 ⟨hlength, hall⟩, fun q s' => ?_⟩
      · rw [decodeRows, hs, hread]
        rfl
      -- The rows behind the first one are for other rounds.
      rw [RoundTable.get?_insert]
      by_cases hq : q = r
      · subst hq
        have hnot : ∀ row', (q, row') ∉ rest := fun row' hmem =>
          Nat.lt_irrefl q.toNat (hbelow _ hmem)
        simp [hnot, hs]
      · simp [hq, hget]
    · refine .inr ⟨(r, row) :: before, q, bad, after, by rw [hsplit, List.cons_append],
        List.forall_mem_cons.2 ⟨hlength, hbefore⟩, hbad, ?_⟩
      rw [decodeRows, hs, hread]
      rfl

end Summary

namespace Tail

variable {t t' : Tail} {range : CommitRange}

theorem toNat_retain_pos (t : Tail) : 0 < t.retain.toNat :=
  Nat.pos_of_ne_zero fun h => t.retain_ne_zero (UInt64.toNat_inj.mp h)

/-- The floor of the window that ends at a round: as many rounds are kept as the tail retains. -/
theorem windowFloor_eq_ok_iff {base floor : Round} :
    t.windowFloor base = .ok floor ↔
      base.toNat + 1 < Round.limit ∧ floor.toNat = base.toNat + 1 - t.retain.toNat := by
  unfold windowFloor
  cases h : base.next with
  | error f =>
    have hlimit := (Round.next_eq_error_iff.mp h).2
    simp only [Except.map, reduceCtorEq, false_iff]
    omega
  | ok following =>
    have hnext := Round.next_eq_ok_iff.mp h
    have hlimit := following.toNat_lt
    rw [Except.map, Except.ok.injEq, ← Round.toNat_inj, Round.toNat_back]
    omega

/-- A window may end at every round but the last one. -/
theorem exists_windowFloor (t : Tail) {base : Round} (h : base.toNat + 1 < Round.limit) :
    ∃ floor, t.windowFloor base = .ok floor ∧ floor.toNat = base.toNat + 1 - t.retain.toNat := by
  obtain ⟨following, hnext⟩ := Round.exists_next h
  have hfloor : t.windowFloor base = .ok (following.back t.retain) := by
    rw [windowFloor, hnext, Except.map]
  exact ⟨_, hfloor, (windowFloor_eq_ok_iff.mp hfloor).2⟩

/-- What a tail picks: the summaries of the range, if it holds all of them and the range and the
round after it are rounds. Nothing else of the tail changes. -/
theorem stage_eq_ok_iff :
    t.stage range = .ok t' ↔
      range.length ≤ maxStaged ∧ ∃ oldest newBase staged,
        range.oldest = .ok oldest ∧ range.newBase = .ok newBase ∧
          collect t.entries range.length.toNat oldest = .ok staged ∧ t' = { t with staged } := by
  unfold stage
  by_cases hroom : maxStaged < range.length
  · rw [if_pos hroom]
    simp only [reduceCtorEq, false_iff, not_and]
    intro hle
    exact absurd hroom (UInt64.not_lt.mpr hle)
  · rw [if_neg hroom]
    have hle : range.length ≤ maxStaged := UInt64.not_lt.mp hroom
    cases holdest : range.oldest with
    | error f => simp
    | ok oldest =>
      cases hnew : range.newBase with
      | error f => simp
      | ok newBase =>
        cases hrows : collect t.entries range.length.toNat oldest with
        | error stop => simp [Except.map, hrows]
        | ok staged => simp [Except.map, hrows, hle, eq_comm]

/-- Picked rows: one for each round from the first on, each the summary in memory. -/
theorem collect_spec {entries : RoundTable Summary} {count : Nat} {first : Round}
    {staged : List (Round × Summary)} (h : collect entries count first = .ok staged) :
    staged.length = count ∧
      (∀ r, r ∈ staged.map Prod.fst ↔
        first.toNat ≤ r.toNat ∧ r.toNat < first.toNat + count) ∧
      ∀ r s, (r, s) ∈ staged → entries.get? r = some s := by
  induction count generalizing first staged with
  | zero =>
    rw [collect, Except.ok.injEq] at h
    subst h
    refine ⟨rfl, fun r => ?_, fun r s hmem => absurd hmem List.not_mem_nil⟩
    simp only [List.map_nil, List.not_mem_nil, false_iff]
    omega
  | succ count ih =>
    rw [collect] at h
    cases hget : entries.get? first with
    | none => simp [hget] at h
    | some s₀ =>
      -- The round behind each row is computed, also behind the last one, so it is a round here.
      cases hnext : first.next with
      | error f => simp [hget, hnext] at h
      | ok following =>
        simp only [hget, hnext] at h
        cases hrest : collect entries count following with
        | error stop => simp [hrest, Except.map] at h
        | ok rest =>
          simp only [hrest, Except.map, Except.ok.injEq] at h
          subst h
          obtain ⟨hlength, hrounds, hvalues⟩ := ih hrest
          have hfollowing := Round.next_eq_ok_iff.mp hnext
          refine ⟨by simp [hlength], fun r => ?_, fun r s hmem => ?_⟩
          · rw [List.map_cons, List.mem_cons, hrounds r]
            change r = first ∨ _ ↔ _
            rw [← Round.toNat_inj]
            omega
          · rcases List.mem_cons.mp hmem with heq | hmem
            · obtain ⟨rfl, rfl⟩ := Prod.mk.inj heq
              exact hget
            · exact hvalues r s hmem

/-- The round behind the picked ones is a round. -/
theorem collect_limit {entries : RoundTable Summary} {count : Nat} {first : Round}
    {staged : List (Round × Summary)} (h : collect entries count first = .ok staged) :
    first.toNat + count < Round.limit := by
  induction count generalizing first staged with
  | zero => exact first.toNat_lt
  | succ count ih =>
    rw [collect] at h
    cases hget : entries.get? first with
    | none => simp [hget] at h
    | some s =>
      cases hnext : first.next with
      | error f => simp [hget, hnext] at h
      | ok following =>
        simp only [hget, hnext] at h
        cases hrest : collect entries count following with
        | error stop => simp [hrest, Except.map] at h
        | ok rest =>
          have hfollowing := Round.next_eq_ok_iff.mp hnext
          have := ih hrest
          omega

/-- Rows are picked if all of them are held; if one is not, that is an objection and no fault. -/
theorem collect_cases (entries : RoundTable Summary) {count : Nat} {first : Round}
    (hlimit : first.toNat + count < Round.limit) :
    (∃ staged, collect entries count first = .ok staged) ∨
      ∃ r, first ≤ r ∧ r.toNat < first.toNat + count ∧ entries.get? r = none ∧
        collect entries count first = .error (.error (.cannotPrepare name (.notHeld r))) := by
  induction count generalizing first with
  | zero => exact .inl ⟨[], rfl⟩
  | succ count ih =>
    rw [collect]
    cases hget : entries.get? first with
    | none => exact .inr ⟨first, Nat.le_refl _, by omega, hget, rfl⟩
    | some s =>
      obtain ⟨following, hnext⟩ := Round.exists_next (r := first) (by omega)
      have hfollowing := Round.next_eq_ok_iff.mp hnext
      have hrest : following.toNat + count < Round.limit := by omega
      simp only [hnext]
      obtain ⟨staged, hrest⟩ | ⟨r, hle, hlt, hmissing, hrest⟩ := ih hrest
      · exact .inl ⟨(first, s) :: staged, by rw [hrest, Except.map]⟩
      · have hle := Round.le_def.mp hle
        exact .inr ⟨r, Round.le_def.mpr (by omega), by omega, hmissing, by rw [hrest, Except.map]⟩

/-- A range whose rows a tail can pick and write: the range and the round behind it are rounds, and
the rows have room in memory. -/
def Stageable (range : CommitRange) : Prop :=
  range.base.toNat + range.length.toNat + 1 < Round.limit ∧ range.length ≤ maxStaged

/-- The faults that may cut a tail short over a range: there is no room for the rows, or the range
ends so high that a round behind it is none. -/
inductive CutsShort (range : CommitRange) : Fault → Prop
  | rows (h : maxStaged < range.length) : CutsShort range .tooManyRows
  | rounds (h : Round.limit ≤ range.base.toNat + range.length.toNat + 1) :
      CutsShort range .addOverflow

theorem Stageable.not_cutsShort (h : Stageable range) (f : Fault) : ¬CutsShort range f := by
  intro hcut
  cases hcut with
  | rows hmany => exact UInt64.not_lt.mpr h.2 hmany
  | rounds hhigh => exact Nat.not_le.mpr h.1 hhigh

theorem stageable_of_stage (h : t.stage range = .ok t') : Stageable range := by
  obtain ⟨hroom, oldest, newBase, staged, holdest, -, hcollect, -⟩ := stage_eq_ok_iff.mp h
  have hfirst := Round.next_eq_ok_iff.mp holdest
  have hlimit := collect_limit hcollect
  exact ⟨by omega, hroom⟩

/-- Rows of such a range are picked if all of them are held; if one is not, that is an objection
and no fault. -/
theorem stage_cases (h : Stageable range) :
    (∃ t', t.stage range = .ok t') ∨
      ∃ r, range.base < r ∧ r.toNat ≤ range.base.toNat + range.length.toNat ∧
        t.entries.get? r = none ∧
          t.stage range = .error (.error (.cannotPrepare name (.notHeld r))) := by
  obtain ⟨hlimit, hroom⟩ := h
  obtain ⟨oldest, holdest⟩ := Round.exists_next (r := range.base) (by omega)
  obtain ⟨newBase, hnew⟩ : ∃ newBase, range.newBase = .ok newBase := by
    cases hnew : range.newBase with
    | ok newBase => exact ⟨newBase, rfl⟩
    | error f =>
      have := (Round.plus_eq_error_iff.mp hnew).2
      omega
  have hfirst := Round.next_eq_ok_iff.mp holdest
  have holdest : range.oldest = .ok oldest := holdest
  -- Nothing cuts the tail short, so only a round that it does not hold can stop it.
  have hrows : oldest.toNat + range.length.toNat < Round.limit := by omega
  unfold stage
  rw [if_neg (UInt64.not_lt.mpr hroom), holdest, hnew]
  simp only
  obtain ⟨staged, hcollect⟩ | ⟨r, hle, hlt, hmissing, hcollect⟩ := collect_cases t.entries hrows
  · exact .inl ⟨{ t with staged }, by rw [hcollect, Except.map]⟩
  · have hle := Round.le_def.mp hle
    refine .inr ⟨r, Round.lt_def.mpr (by omega), by omega, hmissing, ?_⟩
    rw [hcollect, Except.map]

/-- A tail is cut short in collecting rows only where a round behind them is none. -/
theorem fault_of_collect {entries : RoundTable Summary} {count : Nat} {first : Round} {f : Fault}
    (h : collect entries count first = .error (.fault f)) :
    f = .addOverflow ∧ Round.limit ≤ first.toNat + count := by
  -- By induction on the rows still to be collected.
  induction count generalizing first with
  | zero => cases h
  | succ count ih =>
    rw [collect] at h
    cases hget : entries.get? first with
    | none => simp [hget] at h
    | some entry =>
      cases hnext : first.next with
      | error f' =>
        simp only [hget, hnext, Except.error.injEq, Stop.fault.injEq] at h
        obtain ⟨hfault, hlast⟩ := Round.next_eq_error_iff.mp hnext
        exact ⟨h ▸ hfault, by omega⟩
      | ok following =>
        have hfollowing := Round.next_eq_ok_iff.mp hnext
        simp only [hget, hnext] at h
        cases hrest : collect entries count following with
        | ok rest => simp [hrest, Except.map] at h
        | error stop =>
          simp only [hrest, Except.map, Except.error.injEq] at h
          obtain ⟨hfault, hhigh⟩ := ih (h ▸ hrest)
          exact ⟨hfault, by omega⟩

theorem fault_of_stage {f : Fault} (h : t.stage range = .error (.fault f)) :
    CutsShort range f := by
  unfold stage at h
  split at h
  · next hmany =>
    cases h
    exact .rows hmany
  -- The ends of the range are computed first, then the rounds of the rows.
  cases holdest : range.oldest with
  | error f' =>
    simp only [holdest, Except.error.injEq, Stop.fault.injEq] at h
    obtain ⟨rfl, hhigh⟩ := Round.next_eq_error_iff.mp holdest
    exact h ▸ .rounds (by omega)
  | ok oldest =>
    have hfirst := Round.next_eq_ok_iff.mp holdest
    cases hnew : range.newBase with
    | error f' =>
      simp only [holdest, hnew, Except.error.injEq, Stop.fault.injEq] at h
      obtain ⟨rfl, hhigh⟩ := Round.plus_eq_error_iff.mp hnew
      exact h ▸ .rounds (by omega)
    | ok newBase =>
      simp only [holdest, hnew] at h
      cases hrows : collect t.entries range.length.toNat oldest with
      | ok staged => simp [hrows, Except.map] at h
      | error stop =>
        simp only [hrows, Except.map, Except.error.injEq] at h
        obtain ⟨rfl, hhigh⟩ := fault_of_collect (h ▸ hrows)
        exact .rounds (by omega)

theorem fault_of_writeStaged {s : Store} {f : Fault}
    (h : (t.writeStaged range s).1 = .error (.fault f)) : CutsShort range f := by
  unfold writeStaged at h
  split at h
  · cases h
  cases hnew : range.newBase with
  | error f' =>
    simp only [hnew, Except.bind, Except.error.injEq, Stop.fault.injEq] at h
    obtain ⟨rfl, hhigh⟩ := Round.plus_eq_error_iff.mp hnew
    exact h ▸ .rounds (by omega)
  | ok newBase =>
    have hreached := Round.plus_eq_ok_iff.mp hnew
    cases hnext : newBase.next with
    | ok following => simp [hnew, hnext, windowFloor, Except.bind, Except.map] at h
    | error f' =>
      simp only [hnew, hnext, windowFloor, Except.bind, Except.map, Except.error.injEq,
        Stop.fault.injEq] at h
      obtain ⟨rfl, hhigh⟩ := Round.next_eq_error_iff.mp hnext
      exact h ▸ .rounds (by omega)

/-- What the table of the tail holds after summaries in memory were written: these for the rounds
that were written, and for the others what it held before. -/
theorem get?_putRows {entries : RoundTable Summary} {rows : List (Round × Summary)}
    (hrows : ∀ r s, (r, s) ∈ rows → entries.get? r = some s) (store : Store) (q : Round) :
    (putRows store rows).get? tailTable q =
      if q ∈ rows.map Prod.fst then (entries.get? q).map Summary.encode
      else store.get? tailTable q := by
  unfold putRows
  induction rows generalizing store with
  | nil => simp
  | cons row rest ih =>
    obtain ⟨r, s⟩ := row
    have hrest : ∀ r s, (r, s) ∈ rest → entries.get? r = some s :=
      fun r s hmem => hrows r s (List.mem_cons_of_mem _ hmem)
    rw [List.foldl_cons, ih hrest, Store.get?_put, List.map_cons]
    -- A later row of the same round wins, and it has the summary of that round as well.
    by_cases hlater : q ∈ rest.map Prod.fst
    · rw [if_pos hlater, if_pos (List.mem_cons_of_mem _ hlater)]
    · rw [if_neg hlater]
      by_cases hq : q = r
      · subst hq
        have hentry := hrows q s List.mem_cons_self
        rw [if_pos ⟨rfl, rfl⟩, if_pos List.mem_cons_self, hentry, Option.map_some]
      · rw [if_neg (fun h => hq h.2), if_neg]
        exact fun hmem => (List.mem_cons.mp hmem).elim hq hlater

/-- When a tail writes: it picked as many rows as the range has rounds, and the window behind the
range is one. The picked rows are put, then the rows behind the window go. -/
theorem writeStaged_eq_ok_iff {store store' : Store} {pruned : Nat} :
    t.writeStaged range store = (.ok pruned, store') ↔
      t.staged.length = range.length.toNat ∧ ∃ newBase floor,
        range.newBase = .ok newBase ∧ t.windowFloor newBase = .ok floor ∧
          (putRows store t.staged).pruneBelow tailTable floor = (pruned, store') := by
  unfold writeStaged
  by_cases hlength : t.staged.length = range.length.toNat
  · cases hnew : range.newBase with
    | error f => simp [hlength, Except.bind]
    | ok newBase =>
      cases hfloor : t.windowFloor newBase with
      | error f => simp [hlength, hfloor, Except.bind]
      | ok floor => simp [hlength, hfloor, Except.bind, Prod.ext_iff]
  · simp [hlength]

/-- What a range that was picked and written leaves in the table. All of its rounds were held; their
rows are what the tail held, the other rows are what they were, and behind the window of the new
durable round there are none. -/
theorem get?_writeStaged {store store' : Store} {newBase : Round} {pruned : Nat}
    (hnew : range.newBase = .ok newBase) (hstage : t.stage range = .ok t')
    (hwrite : t'.writeStaged range store = (.ok pruned, store')) :
    ∃ floor, t.windowFloor newBase = .ok floor ∧
      (∀ r, range.base < r → r ≤ newBase → (t.entries.get? r).isSome) ∧
      ∀ r, store'.get? tailTable r =
        if r < floor then none
        else if range.base < r ∧ r ≤ newBase then (t.entries.get? r).map Summary.encode
        else store.get? tailTable r := by
  obtain ⟨-, oldest, _, staged, holdest, -, hcollect, rfl⟩ := stage_eq_ok_iff.mp hstage
  obtain ⟨-, hrounds, hvalues⟩ := collect_spec hcollect
  obtain ⟨-, _, floor, hnew', hfloor, hprune⟩ := writeStaged_eq_ok_iff.mp hwrite
  obtain rfl := Except.ok.inj (hnew.symm.trans hnew')
  have hend := Round.plus_eq_ok_iff.mp hnew
  have hfirst := Round.next_eq_ok_iff.mp holdest
  -- The rows picked are those of the range, and nothing else.
  have hpicked : ∀ r, r ∈ staged.map Prod.fst ↔ range.base < r ∧ r ≤ newBase := by
    intro r
    rw [hrounds, Round.lt_def, Round.le_def]
    omega
  refine ⟨floor, hfloor, ?_, ?_⟩
  · intro r hr hr'
    obtain ⟨⟨_, sm⟩, hmem, rfl⟩ := List.mem_map.mp ((hpicked r).mpr ⟨hr, hr'⟩)
    exact Option.isSome_of_mem (hvalues _ sm hmem)
  · intro r
    have hleft := congrArg (fun left : Nat × Store => left.2.get? tailTable r) hprune
    rw [Store.get?_pruneBelow, get?_putRows hvalues] at hleft
    simp only [true_and, hpicked] at hleft
    exact hleft.symm

/-- The tail after a range has landed: nothing is picked any more, and the summaries behind the
window are gone. -/
theorem advance_eq_ok_iff :
    t.advance range = .ok t' ↔ ∃ newBase floor,
      range.newBase = .ok newBase ∧ t.windowFloor newBase = .ok floor ∧
        t' = { t with durable := newBase, entries := t.entries.atLeast floor, staged := [] } := by
  unfold advance
  cases hnew : range.newBase with
  | error f => simp
  | ok newBase =>
    cases hfloor : t.windowFloor newBase with
    | error f => simp [hfloor, Except.map]
    | ok floor => simp [hfloor, Except.map, eq_comm]

/-- The window behind such a range is one. -/
theorem exists_floor_of_stageable (t : Tail) (h : Stageable range) :
    ∃ newBase floor, range.newBase = .ok newBase ∧ t.windowFloor newBase = .ok floor := by
  cases hnew : range.newBase with
  | error f =>
    have := (Round.plus_eq_error_iff.mp hnew).2
    have := h.1
    omega
  | ok newBase =>
    have hend := Round.plus_eq_ok_iff.mp hnew
    have hlimit : newBase.toNat + 1 < Round.limit := by
      have := h.1
      omega
    obtain ⟨floor, hfloor, -⟩ := t.exists_windowFloor hlimit
    exact ⟨newBase, floor, rfl, hfloor⟩

/-- Behind such a range the window moves on. -/
theorem exists_advance (h : Stageable range) :
    ∃ t', t.advance range = .ok t' ∧ t'.staged = [] := by
  obtain ⟨newBase, floor, hnew, hfloor⟩ := t.exists_floor_of_stageable h
  exact ⟨_, advance_eq_ok_iff.mpr ⟨newBase, floor, hnew, hfloor, rfl⟩, rfl⟩

/-! ## Starting from a store -/

variable {u u' : Tail} {store : Store} {durable floor : Round}

/-- The table holds a row of another length for a round of the window that ends at the durable
one. -/
structure Misshapen (u : Tail) (store : Store) (durable r : Round) (row : Bytes) : Prop where
  /-- The window does not begin above the round. -/
  floor : ∃ floor, u.windowFloor durable = .ok floor ∧ floor ≤ r
  /-- It does not end below it. -/
  le : r ≤ durable
  /-- The table has the row. -/
  held : store.get? tailTable r = some row
  /-- It is no row of a summary. -/
  length : row.length ≠ Summary.encodedLength

theorem mem_window_iff {r : Round} {row : Bytes} :
    (r, row) ∈ store.rowsBetween tailTable floor durable ↔
      (floor ≤ r ∧ r ≤ durable) ∧ store.get? tailTable r = some row := by
  rw [Store.rowsBetween, ← RoundTable.get?_eq_some_iff, RoundTable.get?_between,
    Option.ite_none_right_eq_some, Store.get?]

theorem Misshapen.mem_window {r : Round} {row : Bytes} (h : u.Misshapen store durable r row)
    (hfloor : u.windowFloor durable = .ok floor) :
    (r, row) ∈ store.rowsBetween tailTable floor durable := by
  obtain ⟨⟨floor', hfloor', hle⟩, hdurable, hheld, -⟩ := h
  obtain rfl : floor = floor' := Except.ok.inj (hfloor.symm.trans hfloor')
  exact mem_window_iff.2 ⟨⟨hle, hdurable⟩, hheld⟩

/-- How a start ends: in a fault at the last round, where the window has no floor, else with what
the rows of the window are read as, or with the lowest one of another length. -/
theorem reload_cases (u : Tail) (store : Store) (durable : Round) :
    (durable.toNat + 1 = Round.limit ∧ ∃ f, u.reload store durable = .error (.fault f)) ∨
      (durable.toNat + 1 < Round.limit ∧ (∀ r row, ¬ u.Misshapen store durable r row) ∧
        ∃ floor entries, u.windowFloor durable = .ok floor ∧
          u.reload store durable = .ok { u with durable, entries, staged := [] } ∧
          ∀ q s, entries.get? q = some s ↔ (floor ≤ q ∧ q ≤ durable) ∧
            ∃ row, store.get? tailTable q = some row ∧ Summary.decode row = .ok s) ∨
      durable.toNat + 1 < Round.limit ∧ ∃ r row, u.Misshapen store durable r row ∧
        (∀ q row', u.Misshapen store durable q row' → r ≤ q) ∧
        u.reload store durable = .error (.error (.store
          (.corrupt (.summaryLength row.length Summary.encodedLength)))) := by
  obtain hlast | hlt : durable.toNat + 1 = Round.limit ∨ durable.toNat + 1 < Round.limit := by
    have hdurable := durable.toNat_lt
    omega
  · -- The window would begin above the last round.
    cases hfloor : u.windowFloor durable with
    | ok floor => exact absurd (windowFloor_eq_ok_iff.1 hfloor).1 (Nat.lt_irrefl _ <| hlast ▸ ·)
    | error f => exact .inl ⟨hlast, f, by rw [reload, hfloor]⟩
  obtain ⟨floor, hfloor, -⟩ := u.exists_windowFloor hlt
  have hascending : (store.rowsBetween tailTable floor durable).Pairwise (·.1 < ·.1) :=
    RoundTable.ascending _
  obtain ⟨entries, hread, hall, hget⟩ | ⟨before, r, row, after, hsplit, hbefore, hbad, hread⟩ :=
    Summary.decodeRows_cases hascending
  · refine .inr (.inl ⟨hlt, fun q row hq => hq.length (hall _ (hq.mem_window hfloor)), floor,
      entries, hfloor, ?_, fun q s => ?_⟩)
    · rw [reload, hfloor]
      simp only [hread]
    · simp only [hget, mem_window_iff, and_assoc, exists_and_left]
  · have hmem := hsplit ▸ List.mem_append_right before List.mem_cons_self
    obtain ⟨⟨hle, hdurable⟩, hheld⟩ := mem_window_iff.1 hmem
    refine .inr (.inr ⟨hlt, r, row, ⟨⟨floor, hfloor, hle⟩, hdurable, hheld, hbad⟩, ?_, ?_⟩)
    swap
    · rw [reload, hfloor]
      simp only [hread]
    intro q row' hq
    -- The rows ascend, and those in front of this one have the right length.
    rw [hsplit, List.pairwise_append, List.pairwise_cons] at hascending
    obtain ⟨-, ⟨habove, -⟩, -⟩ := hascending
    have hq' := hq.mem_window hfloor
    rw [hsplit, List.mem_append, List.mem_cons] at hq'
    obtain hq' | heq | hq' := hq'
    · exact absurd (hbefore _ hq') hq.length
    · exact Nat.le_of_eq (congrArg (Round.toNat ·.1) heq.symm)
    · exact Nat.le_of_lt (habove _ hq')

/-- A tail that has started holds what the rows of its window are read as. -/
theorem of_reload_eq_ok (h : u.reload store durable = .ok u') :
    ∃ floor entries, u.windowFloor durable = .ok floor ∧
      u' = { u with durable, entries, staged := [] } ∧
      ∀ q s, entries.get? q = some s ↔ (floor ≤ q ∧ q ≤ durable) ∧
        ∃ row, store.get? tailTable q = some row ∧ Summary.decode row = .ok s := by
  obtain ⟨-, f, hread⟩ | ⟨-, -, floor, entries, hfloor, hread, hget⟩ | ⟨-, _, _, -, -, hread⟩ :=
    u.reload_cases store durable
  · cases hread.symm.trans h
  · exact ⟨floor, entries, hfloor, (Except.ok.inj (hread.symm.trans h)).symm, hget⟩
  · cases hread.symm.trans h

/-- A tail starts with the summaries that the table holds for the rounds of its window. -/
theorem reload_eq_ok {value : Round → Summary} (hfloor : u.windowFloor durable = .ok floor)
    (hrows : ∀ r row, store.get? tailTable r = some row → row = (value r).encode) :
    ∃ entries, u.reload store durable = .ok { u with durable, entries, staged := [] } ∧
      ∀ q, entries.get? q =
        if floor ≤ q ∧ q ≤ durable ∧ (store.get? tailTable q).isSome then some (value q)
        else none := by
  obtain ⟨hlast, -⟩ | ⟨-, -, floor', entries, hfloor', hread, hget⟩ | ⟨-, r, row, hrow, -⟩ :=
    u.reload_cases store durable
  · exact absurd hlast (Nat.ne_of_lt (windowFloor_eq_ok_iff.1 hfloor).1)
  · obtain rfl : floor' = floor := Except.ok.inj (hfloor'.symm.trans hfloor)
    refine ⟨entries, hread, fun q => Option.ext fun s => ?_⟩
    rw [hget, Option.ite_none_right_eq_some, and_assoc, and_assoc, and_assoc]
    refine and_congr_right fun _ => and_congr_right fun _ => ?_
    constructor
    · rintro ⟨row, hheld, hdecode⟩
      rw [hrows q row hheld, Summary.decode_encode] at hdecode
      exact ⟨Option.isSome_of_eq_some hheld, congrArg some (Except.ok.inj hdecode)⟩
    · rintro ⟨hsome, heq⟩
      obtain ⟨row, hheld⟩ := Option.isSome_iff_exists.1 hsome
      refine ⟨row, hheld, ?_⟩
      rw [hrows q row hheld, Summary.decode_encode, Option.some.inj heq]
  · exact absurd (hrows r row hrow.held ▸ (value r).length_encode) hrow.length

end Tail

end CommitPipeline
