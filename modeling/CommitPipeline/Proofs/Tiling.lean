import CommitPipeline.Proofs.DurableRound
import CommitPipeline.Proofs.Tame

/-!
# Landed ranges tile the rounds

The ranges that become durable follow each other without a gap or an overlap: the first begins at
the durable round that was loaded, each further one where the one before it ends, and the last ends
at the present durable round. That holds for tickets of any origin in any order, since a cycle on
another durable round than the present one is skipped.

The module introduces:

* `Tiles` — landings that follow each other;
* `timesLanded` — in how many landed ranges a round lies;
* `Pipeline.settles_of_writes` — once its transaction is written, a cycle lands;
* `landings_tile` — what any run lands tiles the rounds above the loaded one.
-/

namespace CommitPipeline

/-- Landings that follow each other from `start` to `finish`. -/
def Tiles : Round → List Landing → Round → Prop
  | start, [], finish => start = finish
  | start, l :: rest, finish =>
    l.range.base = start ∧ l.range.newBase = .ok l.newBase ∧ Tiles l.newBase rest finish

/-- In how many landed ranges a round lies. -/
def timesLanded (landings : List Landing) (r : Round) : Nat :=
  landings.countP fun l => (l.range.contains r).toOption = some true

namespace Tiles

variable {start mid finish : Round} {first second : List Landing}

theorem append (h : Tiles start first mid) (h' : Tiles mid second finish) :
    Tiles start (first ++ second) finish := by
  induction first generalizing start with
  | nil =>
    obtain rfl : start = mid := h
    exact h'
  | cons l rest ih =>
    obtain ⟨hbase, hnew, hrest⟩ := h
    exact ⟨hbase, hnew, ih hrest⟩

theorem le (h : Tiles start first finish) : start ≤ finish := by
  induction first generalizing start with
  | nil =>
    obtain rfl : start = finish := h
    exact Nat.le_refl _
  | cons l rest ih =>
    obtain ⟨rfl, hnew, hrest⟩ := h
    exact Nat.le_trans (Nat.le.intro (Round.plus_eq_ok_iff.mp hnew)) (ih hrest)

/-- A round lies in a range whose end is a round if it is above the base and not above the end. -/
theorem contains_iff {g : CommitRange} {newBase : Round} (hnew : g.newBase = .ok newBase)
    (r : Round) : (g.contains r).toOption = some true ↔ g.base < r ∧ r ≤ newBase := by
  unfold CommitRange.contains
  rw [hnew]
  by_cases h : g.base < r
  · simp [h, Except.map, Except.toOption]
  · simp [h, Except.toOption]

/-- Every round between the two ends lies in exactly one of the ranges, and no other round lies in
any. -/
theorem timesLanded_eq (h : Tiles start first finish) (r : Round) :
    timesLanded first r = if start < r ∧ r ≤ finish then 1 else 0 := by
  induction first generalizing start with
  | nil =>
    obtain rfl : start = finish := h
    rw [if_neg fun hr => absurd hr.1 (Nat.not_lt.mpr hr.2)]
    rfl
  | cons l rest ih =>
    obtain ⟨rfl, hnew, hrest⟩ := h
    -- The first range takes the rounds up to its end, and the rest those above it.
    have hlow : l.range.base ≤ l.newBase := Nat.le.intro (Round.plus_eq_ok_iff.mp hnew)
    have hhigh := hrest.le
    have hcount := ih hrest
    unfold timesLanded at hcount ⊢
    rw [List.countP_cons, hcount]
    simp only [decide_eq_true_eq, contains_iff hnew, Round.lt_def, Round.le_def] at hlow hhigh ⊢
    split <;> split <;> split <;> omega

end Tiles

/-! ## Cycles that land -/

variable {γ : Type} [Guest γ]

/-- What a member needs in order to hear out that a cycle has landed: a durable bulletin is not
ahead of the new durable round, and the window of a tail that ends there is one. -/
def Member.Follows (newBase : Round) : Member γ → Prop
  | durable b => b.latest ≤ newBase
  | tail t => ∃ floor, t.windowFloor newBase = .ok floor
  | memory _ | guest _ => True

namespace Member

variable {newBase : Round} {k : Ticket}

/-- Whoever has written can follow, unless it is a bulletin that was ahead. -/
theorem follows_write (hnew : k.range.newBase = .ok newBase) (t : Member γ) (fx : Effects)
    (s : Store) (ht : t.Within newBase) (hok : (write (t, fx, k, s)).1 = .ok ()) :
    (write (t, fx, k, s)).2.1.Follows newBase := by
  cases t with
  | memory b => trivial
  | durable b => exact ht
  | tail t =>
    rcases h : t.writeStaged k.range s with ⟨stop | pruned, s'⟩ <;> simp only [write, h] at hok ⊢
    · cases hok
    · obtain ⟨-, newBase', floor, hnew', hfloor, -⟩ := Tail.writeStaged_eq_ok_iff.mp h
      obtain rfl : newBase = newBase' := Except.ok.inj (hnew.symm.trans hnew')
      exact ⟨floor, hfloor⟩
  | guest g => trivial

/-- Hearing of a landed cycle changes nothing about the next. -/
theorem follows_landed (t : Member γ) (fx : Effects)
    (ht : t.Follows newBase) : (notice .landed k (t, fx)).2.1.Follows newBase := by
  cases t with
  | memory b => trivial
  | durable b => exact ht
  | tail t =>
    cases h : t.advance k.range with
    | error f => simpa only [notice, h] using ht
    | ok t' =>
      obtain ⟨_, _, _, _, rfl⟩ := Tail.advance_eq_ok_iff.mp h
      simp only [notice, h]
      exact ht
  | guest g => trivial

variable [HearsOut γ]

/-- Whoever can follow is not cut short in hearing that the cycle has landed. -/
theorem landed_ok (hnew : k.range.newBase = .ok newBase) (t : Member γ) (fx : Effects)
    (ht : t.Follows newBase) : (notice .landed k (t, fx)).1 = .ok () := by
  cases t with
  | memory b => rfl
  | durable b => rfl
  | tail t =>
    obtain ⟨floor, hfloor⟩ := ht
    have hadvance := Tail.advance_eq_ok_iff.mpr ⟨newBase, floor, hnew, hfloor, rfl⟩
    simp only [notice, hadvance]
  | guest g => exact HearsOut.notice_ok .landed k g

/-- Whoever can follow is not cut short in hearing that readers are let in again. -/
theorem released_ok (hnew : k.range.newBase = .ok newBase) (t : Member γ) (fx : Effects)
    (ht : t.Follows newBase) : (notice .released k (t, fx)).1 = .ok () := by
  cases t with
  | memory b => rfl
  | durable b =>
    show (Bulletin.announceLanded k (b, fx)).1 = .ok ()
    rw [Bulletin.announceLanded_eq hnew]
    rcases Bulletin.announce_cases newBase b fx with ⟨hlt, -⟩ | ⟨hok, -⟩
    · exact absurd hlt (Nat.not_lt.mpr ht)
    · exact hok
  | tail t => rfl
  | guest g => exact HearsOut.notice_ok .released k g

end Member

namespace Pipeline

variable {p q : Pipeline (Member γ)} {k k' : Ticket} {newBase : Round}

/-- Once everybody has written, everybody can follow to the new durable round. -/
theorem follows_of_writes [KeepsRange γ] (h : p.Writes k newBase k' q) (hp : p.Current) :
    ∀ t ∈ q.trackers, t.Follows newBase := by
  obtain ⟨k₁, p₁, hprepared, hnew, hwritten⟩ := h.phases
  have hprepare := (steady_log (p := p) (.cycleEntered k.range.base k.range.length)).trans
    (steady_prepareAll k)
  rw [hprepared] at hprepare
  have hle : p.store.round ≤ newBase := by
    rw [← hp.durable h.loaded]
    exact h.le
  have hwithin : ∀ t ∈ p₁.trackers, t.Within newBase :=
    hprepare.forall_trackers (fun hsteady => .of_sameBoards hsteady.sameBoards)
      fun t ht => (hp.within t ht).mono hle
  -- A tail that wrote has computed the window of the new durable round, so it is one.
  obtain ⟨trackers, effects, working, hsweep, rfl⟩ := transaction_eq_ok hwritten
  have hfollows : ∀ t ∈ (sweep Tracker.write p₁.trackers (p₁.effects, k₁, p₁.store)).2.1,
      t.Follows newBase :=
    (sweep_forall_of_ok (H := Member.Follows newBase)
      (I := fun c : Effects × Ticket × Store => c.2.1.range = k₁.range)
      (fun t c ht hrange hok =>
        ⟨Member.follows_write (by rw [hrange]; exact hnew) t c.1 c.2.2 ht hok,
          (Member.range_write t c.1 c.2.1 c.2.2).trans hrange⟩)
      p₁.trackers hwithin rfl (congrArg Prod.fst hsweep)).1
  rw [hsweep] at hfollows
  exact hfollows

/-- Once its transaction is written, a cycle lands. -/
theorem settles_of_writes [KeepsRange γ] [HearsOut γ] (h : p.Writes k newBase k' q)
    (hp : p.Current) : (q.settleLanded newBase k').1 = .ok (.landed newBase) := by
  have hnew : k'.range.newBase = .ok newBase := by rw [h.range, h.lands]
  have hfollows := follows_of_writes h hp
  obtain ⟨p₁, rfl, hcases⟩ := settleLanded_cases (q := q) newBase k'
  obtain ⟨hfirst, hstill⟩ := sweep_of_forall_ok
    (fun t fx ht => ⟨Member.landed_ok (k := { k' with flushed := true }) hnew t fx ht,
      Member.follows_landed (k := { k' with flushed := true }) t fx ht⟩)
    q.trackers q.effects hfollows
  obtain ⟨f, hfault, -⟩ | ⟨-, p₂, rfl, hcases⟩ := hcases
  · exact nomatch hfirst.symm.trans hfault
  -- Nobody who heard of the landing is behind now, so nobody is cut short in the second notice.
  have hsecond := (sweep_of_forall_ok (H := fun _ => True)
    (fun t fx ht => ⟨Member.released_ok (k := { k' with flushed := true }) hnew t fx ht, trivial⟩)
    _ (({ q with durable := newBase, flushed := true } : Pipeline (Member γ)).tell .landed
      { k' with flushed := true }).2.effects hstill).1
  obtain ⟨f, hfault, -⟩ | ⟨-, heq⟩ := hcases
  · exact nomatch hsecond.symm.trans hfault
  · rw [heq]

end Pipeline

/-! ## Runs -/

variable [KeepsRange γ]

namespace Operation

variable [HearsOut γ] {p : Pipeline (Member γ)}

/-- What one operation lands leads from the durable round before it to the one after it. -/
theorem tiles_landed? (operation : Operation) (hp : p.Current) (hloaded : p.loaded) :
    Tiles p.durable (operation.landed? p).toList (operation.run p).durable := by
  cases operation with
  | load ledger =>
    obtain ⟨-, hround⟩ := Pipeline.load_frame ledger p
    rcases hround with ⟨-, hdurable, -⟩ | ⟨-, hdurable, -⟩
    · exact (hp.durable hloaded).trans hdurable.symm
    · exact hdurable.symm
  | newBlock block delta => rfl
  | close =>
    show p.durable = p.close.2.durable
    rcases Pipeline.close_cases p with heq | heq <;> rw [heq] <;> rfl
  | request r =>
    show Tiles p.durable (r.landed? p).toList (r.run p).durable
    rcases r.run_cases p with
      ⟨hsteady, hnone⟩ | ⟨p₀, k, newBase, k', q, hbefore, hwrites, hafter, hlanded⟩
    · rw [hnone]
      exact hsteady.durable.symm
    -- The cycle landed on the durable round it found, and nothing else lands in one request.
    have hresult := Pipeline.settles_of_writes hwrites (hp.of_steady hbefore)
    have hticket := (Pipeline.settleLanded_result (p := q) newBase k').1
    have hdurable := (Pipeline.settleLanded_frame (q := q) newBase k').2.1
    have hlanding : r.landed? p = some ⟨k.range, newBase⟩ := by
      rw [hlanded]
      rcases h : q.settleLanded newBase k' with ⟨result, k₁, q₁⟩
      rw [h] at hresult hticket
      obtain rfl : result = _ := hresult
      obtain rfl : k₁ = _ := hticket
      exact congrArg (fun range => some (Landing.mk range newBase)) hwrites.range
    rw [hlanding, hafter.durable, hdurable]
    exact ⟨hwrites.base.trans hbefore.durable, hwrites.lands, rfl⟩

/-- What a run lands leads from the durable round before it to the one after it. -/
theorem tiles_landings (operations : List Operation) (hp : p.Current) (hloaded : p.loaded) :
    Tiles p.durable (landings operations p) (runAll operations p).durable := by
  induction operations generalizing p with
  | nil => rfl
  | cons operation rest ih =>
    have hfirst := tiles_landed? operation hp hloaded
    have hadvance := operation.advances_run hp
    exact hfirst.append (ih hadvance.current (hadvance.loaded hloaded))

theorem runAll_append {τ : Type} [Tracker τ] (first second : List Operation) (p : Pipeline τ) :
    runAll (first ++ second) p = runAll second (runAll first p) := List.foldl_append

end Operation

/-- From a load that ended well, let anything be done to a pipeline, whose guests keep ranges as
they are and are not cut short in hearing how cycles went on. Then the cycles that land follow each
other from the loaded round to the present durable round. So every round between the two was made
durable exactly once and no other round was, and the durable round never fell. -/
theorem landings_tile [HearsOut γ] (start : Pipeline (Member γ)) (ledger : LedgerView)
    {p : Pipeline (Member γ)} (hload : start.load ledger = (.ok (), p))
    (operations : List Operation) :
    Tiles start.store.round (Operation.landings operations p)
        (Operation.runAll operations p).durable ∧
      (∀ r, timesLanded (Operation.landings operations p) r =
        if start.store.round < r ∧ r ≤ (Operation.runAll operations p).durable then 1 else 0) ∧
      (Operation.runAll operations p).durable = (Operation.runAll operations p).store.round ∧
      ∀ earlier later, operations = earlier ++ later →
        (Operation.runAll earlier p).durable ≤ (Operation.runAll operations p).durable := by
  obtain ⟨hcurrent, hloaded, hround⟩ := Pipeline.current_of_load hload
  have hadvance := Operation.advances_runAll operations hcurrent
  have htiles := Operation.tiles_landings operations hcurrent hloaded
  rw [hcurrent.durable hloaded, hround] at htiles
  -- The rest follows from the two ends alone.
  refine ⟨htiles, htiles.timesLanded_eq, hadvance.current.durable (hadvance.loaded hloaded), ?_⟩
  rintro earlier later rfl
  have hearlier := Operation.advances_runAll earlier hcurrent
  rw [Operation.runAll_append]
  exact (Operation.tiles_landings later hearlier.current (hearlier.loaded hloaded)).le

/-- A durable bulletin beside a guest that takes no more than one round at a time. -/
def narrowCrew : List (Member Tame) :=
  [.durable {}, .guest { scripted := { name := "narrow", script := { maxLength := some 1 } } }]

/-- A pipeline over these two, not loaded yet. -/
def narrowPipeline : Pipeline (Member Tame) :=
  { trackers := narrowCrew, config := {}, store := .empty }

/-- A cycle of one round, the same ticket once more, and two rounds of which the worker lands the
first. -/
def narrowRun : List Operation :=
  [.request (.commit ⟨⟨.zero, 1, 0⟩, ⟨3⟩, false⟩),
    .request (.commit ⟨⟨.zero, 1, 0⟩, ⟨3⟩, false⟩),
    .request (.work ⟨⟨⟨1⟩, 2, 0⟩, ⟨3⟩, false⟩)]

/-- From a load at the beginning, that run lands two cycles, which make rounds 1 and 2 durable once
each. -/
theorem landings_tile_narrowCrew :
    ∃ p, narrowPipeline.load { latest := ⟨3⟩, block := fun _ => none } = (.ok (), p) ∧
      Operation.landings narrowRun p = [⟨⟨.zero, 1, 0⟩, ⟨1⟩⟩, ⟨⟨⟨1⟩, 1, 0⟩, ⟨2⟩⟩] ∧
      Tiles .zero (Operation.landings narrowRun p) ⟨2⟩ ∧
      ∀ r, timesLanded (Operation.landings narrowRun p) r =
        if .zero < r ∧ r ≤ ⟨2⟩ then 1 else 0 := by
  have hload : narrowPipeline.load { latest := ⟨3⟩, block := fun _ => none } = (.ok (), _) :=
    Prod.ext rfl rfl
  obtain ⟨htiles, honce, -⟩ := landings_tile narrowPipeline _ hload narrowRun
  exact ⟨_, hload, rfl, htiles, honce⟩

end CommitPipeline
