import CommitPipeline.Proofs.Custody
import CommitPipeline.Proofs.Tame

/-!
# Trackers that only narrow

A negotiation hands the proposal from one tracker to the next. If every tracker refuses the range
it is handed or narrows it, what is left lies within the proposal. So its end is a round, and one as
far behind the committed round as the caller asked for.

The module introduces:

* `CommitRange.Narrows`, `OnlyNarrows` — narrower ranges, and trackers that answer with these;
* `Agreed`, `Vetoed` — what becomes of a range that trackers are asked about in order;
* `Pipeline.schedule_answer` — the answer of a negotiation, given what the trackers make of the
  proposal;
* `schedule_within_proposal` — a negotiation over trackers that only narrow.
-/

namespace CommitPipeline

/-- The second range has the base of the first, no more rounds and no less lookback. -/
structure CommitRange.Narrows (g g' : CommitRange) : Prop where
  base : g'.base = g.base
  length : g'.length ≤ g.length
  lookback : g.lookback ≤ g'.lookback

namespace CommitRange

variable {g g' g'' : CommitRange}

@[refl]
theorem Narrows.refl (g : CommitRange) : g.Narrows g := ⟨rfl, UInt64.le_refl _, UInt64.le_refl _⟩

theorem Narrows.trans (h : g.Narrows g') (h' : g'.Narrows g'') : g.Narrows g'' where
  base := h'.base.trans h.base
  length := UInt64.le_trans h'.length h.length
  lookback := UInt64.le_trans h.lookback h'.lookback

theorem narrows_clampNewest (g : CommitRange) (newest : Round) :
    g.Narrows (g.clampNewest newest) where
  base := rfl
  length := by
    rw [UInt64.le_iff_toNat_le, clampNewest, Word.toNat_min]
    exact Nat.min_le_left _ _
  lookback := UInt64.le_refl _

/-- A narrower range than one that ends at a round ends at a round not above it. -/
theorem Narrows.newBase_le {n : Nat} (h : g.Narrows g')
    (hend : g.base.toNat + g.length.toNat ≤ n) (hn : n < Round.limit) :
    ∃ newBase, g'.newBase = .ok newBase ∧ newBase.toNat ≤ n := by
  have hlength := UInt64.le_iff_toNat_le.mp h.length
  rw [← h.base] at hend
  cases hnew : g'.newBase with
  | ok newBase => exact ⟨newBase, rfl, by rw [← Round.plus_eq_ok_iff.mp hnew]; omega⟩
  | error f =>
    have hlimit := (Round.plus_eq_error_iff.mp hnew).2
    omega

end CommitRange

section Trackers

variable {τ : Type} [Tracker τ]

/-- Whatever range the tracker is handed, it refuses it or narrows it. -/
def OnlyNarrows (t : τ) : Prop :=
  ∀ (committed durable : Round) (range : CommitRange) (fx : Effects),
    ∃ answer, (Tracker.refine committed durable range (t, fx)).1 = .ok answer ∧
      ∀ g, answer = some g → range.Narrows g

/-- Trackers that are asked in order agree: each one makes a range of the range that those before
it left, and the second range is what the last one leaves. -/
inductive Agreed (committed durable : Round) :
    List τ → Effects → CommitRange → CommitRange → Prop
  | done (fx : Effects) (g : CommitRange) : Agreed committed durable [] fx g g
  | next {t t' : τ} {rest : List τ} {fx fx' : Effects} {g g' g'' : CommitRange}
      (hmade : Tracker.refine committed durable g (t, fx) = (.ok (some g'), t', fx'))
      (hrest : Agreed committed durable rest fx' g' g'') :
      Agreed committed durable (t :: rest) fx g g''

/-- Of trackers that are asked in order one refuses the range that those before it left. -/
inductive Vetoed (committed durable : Round) : List τ → Effects → CommitRange → Prop
  | here {t : τ} {rest : List τ} {fx : Effects} {g : CommitRange}
      (hrefused : (Tracker.refine committed durable g (t, fx)).1 = .ok none) :
      Vetoed committed durable (t :: rest) fx g
  | later {t t' : τ} {rest : List τ} {fx fx' : Effects} {g g' : CommitRange}
      (hmade : Tracker.refine committed durable g (t, fx) = (.ok (some g'), t', fx'))
      (hrest : Vetoed committed durable rest fx' g') :
      Vetoed committed durable (t :: rest) fx g

variable {committed durable : Round} {trackers : List τ} {fx : Effects} {g g' : CommitRange}

/-- Trackers that only narrow come to a narrower range, or one of them refuses. -/
theorem agreed_or_vetoed (h : ∀ t ∈ trackers, OnlyNarrows t) (fx : Effects) (g : CommitRange) :
    (∃ g', Agreed committed durable trackers fx g g' ∧ g.Narrows g') ∨
      Vetoed committed durable trackers fx g := by
  -- By induction on the trackers, each of them with the range that those before it left.
  induction trackers generalizing fx g with
  | nil => exact .inl ⟨g, .done fx g, .refl g⟩
  | cons t rest ih =>
    obtain ⟨ht, hrest⟩ := List.forall_mem_cons.mp h
    obtain ⟨answer, hanswer, hnarrows⟩ := ht committed durable g fx
    rcases hmade : Tracker.refine committed durable g (t, fx) with ⟨result, t', fx'⟩
    rw [hmade] at hanswer
    obtain rfl : result = _ := hanswer
    cases answer with
    | none => exact .inr (.here (congrArg Prod.fst hmade))
    | some g₁ =>
      obtain ⟨g', hagreed, hnarrower⟩ | hvetoed := ih hrest fx' g₁
      · exact .inl ⟨g', .next hmade hagreed, (hnarrows g₁ rfl).trans hnarrower⟩
      · exact .inr (.later hmade hvetoed)

end Trackers

namespace Pipeline

variable {τ : Type} [Tracker τ] {p : Pipeline τ} {committed durable : Round}
  {trackers : List τ} {fx : Effects} {g g' : CommitRange}

/-! ## What a negotiation asks -/

/-- The sweep over a tracker and others behind it, by what the tracker makes of the range. -/
theorem sweep_refineOne_cons (committed durable : Round) (t : τ) (rest : List τ) (fx : Effects)
    (g : CommitRange) :
    sweep (refineOne committed durable) (t :: rest) (fx, g) =
      match Tracker.refine committed durable g (t, fx) with
      | (.error f, t', fx') => (.error (.fault f), t' :: rest, fx', g)
      | (.ok none, t', fx') => (.error (.veto (Tracker.name t')), t' :: rest, fx', g)
      | (.ok (some g'), t', fx') =>
        let left := sweep (refineOne committed durable) rest (fx', g')
        (left.1, t' :: left.2.1, left.2.2) := by
  rw [sweep, refineOne]
  rcases Tracker.refine committed durable g (t, fx) with ⟨f | _ | g', t', fx'⟩ <;> rfl

/-- Trackers agree exactly if the sweep over them runs to its end. -/
theorem agreed_iff :
    Agreed committed durable trackers fx g g' ↔
      (sweep (refineOne committed durable) trackers (fx, g)).1 = .ok () ∧
        (sweep (refineOne committed durable) trackers (fx, g)).2.2.2 = g' := by
  constructor
  · intro h
    induction h with
    | done fx g => exact ⟨rfl, rfl⟩
    | next hmade _ ih =>
      rw [sweep_refineOne_cons, hmade]
      exact ih
  · rintro ⟨hok, rfl⟩
    induction trackers generalizing fx g with
    | nil => exact .done fx g
    | cons t rest ih =>
      rw [sweep_refineOne_cons] at hok ⊢
      rcases hmade : Tracker.refine committed durable g (t, fx) with ⟨f | _ | g₁, t', fx'⟩ <;>
        rw [hmade] at hok
      -- A tracker that was cut short or refused would have ended the sweep.
      · cases hok
      · cases hok
      · exact .next hmade (ih hok)

/-- A tracker refuses exactly if the sweep ends with its veto. -/
theorem vetoed_iff :
    Vetoed committed durable trackers fx g ↔
      ∃ name, (sweep (refineOne committed durable) trackers (fx, g)).1 = .error (.veto name) := by
  constructor
  · intro h
    -- By induction on how far the range came before it met the veto.
    induction h with
    | @here t rest fx g hrefused =>
      rw [sweep_refineOne_cons]
      rcases hmade : Tracker.refine committed durable g (t, fx) with ⟨result, t', fx'⟩
      rw [hmade] at hrefused
      obtain rfl : result = _ := hrefused
      exact ⟨_, rfl⟩
    | later hmade _ ih =>
      rw [sweep_refineOne_cons, hmade]
      exact ih
  · rintro ⟨name, hveto⟩
    induction trackers generalizing fx g with
    | nil => cases hveto
    | cons t rest ih =>
      rw [sweep_refineOne_cons] at hveto
      rcases hmade : Tracker.refine committed durable g (t, fx) with ⟨f | _ | g₁, t', fx'⟩ <;>
        rw [hmade] at hveto
      · cases hveto
      · exact .here (congrArg Prod.fst hmade)
      · exact .later hmade (ih hveto)

theorem refineAll_eq_ok_iff :
    (p.refineAll committed g).1 = .ok g' ↔
      Agreed committed p.durable p.trackers p.effects g g' := by
  rw [agreed_iff, refineAll]
  rcases sweep (refineOne committed p.durable) p.trackers (p.effects, g) with
    ⟨refusal | _, left, fx, range⟩ <;> simp [Except.map]

theorem refineAll_eq_veto_iff :
    (∃ name, (p.refineAll committed g).1 = .error (.veto name)) ↔
      Vetoed committed p.durable p.trackers p.effects g := by
  rw [vetoed_iff, refineAll]
  rcases sweep (refineOne committed p.durable) p.trackers (p.effects, g) with
    ⟨refusal | _, left, fx, range⟩ <;> simp [Except.map]

/-- The answer of a negotiation, by what the trackers make of the proposal. -/
theorem schedule_answer (p : Pipeline τ) (committed : Round) (lookback : UInt64) :
    (p.schedule committed lookback).1 =
      if p.inFlight ∨ (p.propose committed lookback).isEmpty then .ok none
      else match (p.refineAll committed (p.propose committed lookback)).1 with
        | .error (.fault f) => .error f
        | .error (.veto _) => .ok none
        | .ok g =>
          if g.isEmpty then .ok none
          else g.newBase.map fun _ => some { range := g, committed } := by
  -- The trackers are asked under the mark, which none of them sees.
  have hrefine : (({ p with inFlight := true } : Pipeline τ).refineAll committed
      (p.propose committed lookback)).1 =
        (p.refineAll committed (p.propose committed lookback)).1 := rfl
  have hpropose : ({ p with inFlight := true } : Pipeline τ).propose committed lookback =
      p.propose committed lookback := rfl
  unfold schedule claimMark
  by_cases hmark : p.inFlight
  · rw [if_pos hmark, if_pos (.inl hmark)]
  rw [if_neg hmark]
  simp only [negotiate, hpropose, hmark, Bool.false_eq_true, false_or]
  split
  · rfl
  rw [← hrefine]
  rcases ({ p with inFlight := true } : Pipeline τ).refineAll committed
    (p.propose committed lookback) with ⟨(name | f) | g, q⟩
  · rfl
  · rfl
  · simp only [conclude]
    split
    · rfl
    · cases g.newBase <;> rfl

/-- With a ticket the mark, which was free, is set; without one it is what it was. -/
theorem inFlight_schedule (p : Pipeline τ) (committed : Round) (lookback : UInt64) :
    (∀ k, (p.schedule committed lookback).1 = .ok (some k) →
        p.inFlight = false ∧ (p.schedule committed lookback).2.inFlight = true) ∧
      ((p.schedule committed lookback).1 = .ok none →
        (p.schedule committed lookback).2.inFlight = p.inFlight) := by
  have hscheduled := scheduled_schedule committed lookback p
  generalize p.schedule committed lookback = left at hscheduled
  cases hscheduled with
  | nothing hsame => exact ⟨nofun, fun _ => hsame.inFlight⟩
  | ticket hfree hmarked => exact ⟨fun _ _ => ⟨hfree, hmarked.inFlight⟩, nofun⟩
  | cutShort hfree hmarked => exact ⟨nofun, nofun⟩

/-- A negotiation leaves database, durable round and queue alone. -/
theorem schedule_untouched (p : Pipeline τ) (committed : Round) (lookback : UInt64) :
    (p.schedule committed lookback).2.store = p.store ∧
      (p.schedule committed lookback).2.durable = p.durable ∧
      (p.schedule committed lookback).2.queue = p.queue := by
  obtain ⟨inFlight, trackers, effects, heq⟩ := schedule_frame (p := p) committed lookback
  rw [heq]
  exact ⟨rfl, rfl, rfl⟩

end Pipeline

/-! ## Narrow negotiations -/

namespace Pipeline

variable {τ : Type} {p : Pipeline τ} {committed : Round} {lookback : UInt64} {g : CommitRange}

theorem isEmpty_propose_iff :
    (p.propose committed lookback).isEmpty ↔
      min (committed.toNat - lookback.toNat - p.durable.toNat) p.config.maxRounds.toNat = 0 := by
  rw [← toNat_length_propose, CommitRange.isEmpty, decide_eq_true_iff, ← UInt64.toNat_inj]
  rfl

/-- What is left of a proposal that is only narrowed. -/
theorem within_propose (hnarrows : (p.propose committed lookback).Narrows g)
    (hlong : ¬(p.propose committed lookback).isEmpty) :
    g.base = p.durable ∧ g.length ≤ p.config.maxRounds ∧
      (∃ newBase, g.newBase = .ok newBase ∧ newBase ≤ committed.back lookback) ∧
      lookback ≤ g.lookback := by
  have hlength := toNat_length_propose (p := p) committed lookback
  rw [isEmpty_propose_iff] at hlong
  have hback := Round.toNat_back committed lookback
  refine ⟨hnarrows.base, UInt64.le_trans hnarrows.length ?_, ?_, hnarrows.lookback⟩
  · rw [UInt64.le_iff_toNat_le, hlength]
    exact Nat.min_le_right _ _
  · -- A proposal that is not empty ends at or below the round so far behind the committed one.
    have hend : (p.propose committed lookback).base.toNat +
        (p.propose committed lookback).length.toNat ≤ (committed.back lookback).toNat := by
      show p.durable.toNat + _ ≤ _
      omega
    exact hnarrows.newBase_le hend (Round.toNat_lt _)

variable [Tracker τ]

/-- Over trackers that only narrow a negotiation gives a ticket or says why not. -/
theorem schedule_cases (committed : Round) (lookback : UInt64)
    (hnarrow : ∀ t ∈ p.trackers, OnlyNarrows t) :
    let g₀ := p.propose committed lookback
    ((p.schedule committed lookback).1 = .ok none ∧
        (p.inFlight = true ∨ g₀.isEmpty ∨
          Vetoed committed p.durable p.trackers p.effects g₀ ∨
          ∃ g, Agreed committed p.durable p.trackers p.effects g₀ g ∧ g.length = 0)) ∨
      ∃ g, (p.schedule committed lookback).1 = .ok (some { range := g, committed }) ∧
        p.inFlight = false ∧ ¬g₀.isEmpty ∧ g₀.Narrows g ∧ g.length ≠ 0 ∧
        Agreed committed p.durable p.trackers p.effects g₀ g := by
  intro g₀
  rw [schedule_answer]
  -- The mark and the proposal are looked at before any tracker is asked.
  by_cases hskip : p.inFlight ∨ g₀.isEmpty
  · rw [if_pos hskip]
    exact .inl ⟨rfl, hskip.imp_right .inl⟩
  rw [if_neg hskip]
  obtain ⟨hmark, hlong⟩ := not_or.mp hskip
  obtain ⟨g, hagreed, hnarrows⟩ | hvetoed := agreed_or_vetoed hnarrow p.effects g₀
  · rw [refineAll_eq_ok_iff.mpr hagreed]
    by_cases hempty : g.isEmpty
    · have hnone : (if g.isEmpty then .ok none else g.newBase.map fun _ =>
          some { range := g, committed } : Except Fault (Option Ticket)) = .ok none := if_pos hempty
      exact .inl ⟨hnone, .inr (.inr (.inr ⟨g, hagreed, of_decide_eq_true hempty⟩))⟩
    · -- The end of the range is a round, as it lies within the proposal.
      obtain ⟨-, -, ⟨newBase, hnew, -⟩, -⟩ := within_propose hnarrows hlong
      simp only [if_neg hempty, hnew]
      exact .inr ⟨g, rfl, Bool.not_eq_true _ ▸ hmark, hlong, hnarrows,
        fun hzero => hempty (decide_eq_true hzero), hagreed⟩
  · obtain ⟨name, hveto⟩ := refineAll_eq_veto_iff.mpr hvetoed
    rw [hveto]
    exact .inl ⟨rfl, .inr (.inr (.inl hvetoed))⟩

end Pipeline

namespace Member

variable {γ : Type} [Guest γ]

/-- The trackers of the library only narrow, and so do guests that do. -/
theorem onlyNarrows (t : Member γ)
    (hguest : ∀ g, t = guest g → ∀ committed durable range, ∃ answer,
      (Guest.refine committed durable range g).1 = .ok answer ∧
        ∀ g', answer = some g' → range.Narrows g') : OnlyNarrows t := by
  intro committed durable range fx
  cases t with
  | memory b =>
    refine ⟨some range, rfl, ?_⟩
    rintro _ ⟨⟩
    exact .refl range
  | durable b =>
    refine ⟨some range, rfl, ?_⟩
    rintro _ ⟨⟩
    exact .refl range
  | tail u =>
    refine ⟨u.refine range, rfl, fun g' hrefined => ?_⟩
    obtain ⟨highest, -, rfl⟩ := Option.map_eq_some_iff.mp hrefined
    have hclamped := range.narrows_clampNewest highest
    -- Of the lookback only the wider one is kept.
    refine ⟨hclamped.base, hclamped.length, ?_⟩
    rw [UInt64.le_iff_toNat_le]
    show _ ≤ (max range.lookback u.retain).toNat
    rw [Word.toNat_max]
    exact Nat.le_max_left _ _
  | guest g => exact hguest g rfl committed durable range

end Member

/-- Whatever state a pipeline is in, let each of its trackers refuse the ranges it is handed or
narrow them. Then a negotiation is not cut short. A ticket is given under a mark that was free
before; its range builds on the durable round, is as long as the settings allow and not empty, has
at least the lookback that was asked for, and ends at least as far behind the committed round.
Without a ticket the mark is what it was, and that is so exactly if the mark was set, nothing was
there to be proposed, a tracker refused, or they left nothing. Database, durable round and queue
are left alone. -/
theorem schedule_within_proposal {τ : Type} [Tracker τ] (p : Pipeline τ) (committed : Round)
    (lookback : UInt64) (hnarrow : ∀ t ∈ p.trackers, OnlyNarrows t) :
    let q := (p.schedule committed lookback).2
    ∃ answer, (p.schedule committed lookback).1 = .ok answer ∧
      (∀ k, answer = some k →
        p.inFlight = false ∧ q.inFlight = true ∧ k.range.base = p.durable ∧
        1 ≤ k.range.length ∧ k.range.length ≤ p.config.maxRounds ∧
        (∃ newBase, k.newBase = .ok newBase ∧ newBase ≤ committed.back lookback) ∧
        lookback ≤ k.range.lookback ∧ k.committed = committed) ∧
      (answer = none → q.inFlight = p.inFlight) ∧
      (answer = none ↔ p.inFlight = true ∨
        min (committed.toNat - lookback.toNat - p.durable.toNat) p.config.maxRounds.toNat = 0 ∨
        Vetoed committed p.durable p.trackers p.effects (p.propose committed lookback) ∨
        ∃ g, Agreed committed p.durable p.trackers p.effects (p.propose committed lookback) g ∧
          g.length = 0) ∧
      q.store = p.store ∧ q.durable = p.durable ∧ q.queue = p.queue := by
  intro q
  obtain ⟨hset, hback⟩ := p.inFlight_schedule committed lookback
  have huntouched := p.schedule_untouched committed lookback
  rw [← Pipeline.isEmpty_propose_iff]
  -- Either there is no ticket, with the reason why, or a range that the trackers agreed on.
  obtain ⟨hnone, hwhy⟩ | ⟨g, hsome, hmark, hlong, hnarrows, hpos, hagreed⟩ :=
    Pipeline.schedule_cases committed lookback hnarrow
  · exact ⟨none, hnone, nofun, fun _ => hback hnone, iff_of_true rfl hwhy, huntouched⟩
  refine ⟨_, hsome, ?_, nofun, iff_of_false nofun ?_, huntouched⟩
  · rintro _ ⟨⟩
    obtain ⟨hbase, hlength, hend, hlookback⟩ := Pipeline.within_propose hnarrows hlong
    have hone : 1 ≤ g.length := by
      rw [UInt64.le_iff_toNat_le]
      exact Nat.one_le_iff_ne_zero.mpr fun hzero => hpos (UInt64.toNat_inj.mp hzero)
    exact ⟨hmark, (hset _ hsome).2, hbase, hone, hlength, hend, hlookback, rfl⟩
  · -- The trackers agreed on one range, which has rounds, so nobody refused or left nothing.
    have hone := Pipeline.refineAll_eq_ok_iff.mpr hagreed
    rintro (hset | hempty | hvetoed | ⟨g', hagreed', hzero⟩)
    · rw [hmark] at hset
      cases hset
    · exact hlong hempty
    · obtain ⟨name, hveto⟩ := Pipeline.refineAll_eq_veto_iff.mpr hvetoed
      rw [hone] at hveto
      cases hveto
    · have hother := Pipeline.refineAll_eq_ok_iff.mpr hagreed'
      rw [hone] at hother
      cases hother
      exact hpos hzero

/-- A pipeline whose tail holds the sixth round, with a guest behind it that narrows ranges to the
fourth. -/
def clampingPipeline : Pipeline (Member Tame) where
  trackers :=
    [.memory {}, .tail { Tail.keeping 3 with entries := RoundTable.empty.insert ⟨6⟩ default },
      .guest { scripted := { name := "clamp", script := { clampNewest := some ⟨4⟩ } } }]
  config := {}
  store := .empty
  loaded := true

/-- Of the eight rounds proposed the guest leaves four, and the tail makes the lookback three. -/
theorem schedule_within_proposal_clampingPipeline :
    (∀ t ∈ clampingPipeline.trackers, OnlyNarrows t) ∧
      (clampingPipeline.schedule ⟨10⟩ 2).1 = .ok (some ⟨⟨.zero, 4, 3⟩, ⟨10⟩, false⟩) ∧
      ∃ newBase, CommitRange.newBase ⟨.zero, 4, 3⟩ = .ok newBase ∧
        newBase ≤ (⟨10⟩ : Round).back 2 := by
  have hnarrow : ∀ t ∈ clampingPipeline.trackers, OnlyNarrows t := by
    refine fun t ht => t.onlyNarrows fun g hg committed durable range => ⟨_, rfl, ?_⟩
    -- The only guest is the one that clamps.
    obtain rfl : g = _ := by simpa [clampingPipeline, hg] using ht
    rintro _ ⟨⟩
    exact range.narrows_clampNewest ⟨4⟩
  have hscheduled :
      (clampingPipeline.schedule ⟨10⟩ 2).1 = .ok (some ⟨⟨.zero, 4, 3⟩, ⟨10⟩, false⟩) := rfl
  obtain ⟨answer, hanswer, hticket, -⟩ :=
    schedule_within_proposal clampingPipeline ⟨10⟩ 2 hnarrow
  obtain ⟨-, -, -, -, -, hend, -⟩ := hticket _ (Except.ok.inj (hanswer.symm.trans hscheduled))
  exact ⟨hnarrow, hscheduled, hend⟩

end CommitPipeline
