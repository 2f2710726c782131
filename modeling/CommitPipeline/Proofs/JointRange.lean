import CommitPipeline.Proofs.Crew
import CommitPipeline.Proofs.Narrowing
import Mathlib.Data.List.Perm.Basic

/-!
# The range that tails agree on

Bulletins hand every range on, so a negotiation over the library's own trackers is up to the tails
among them. Each one cuts the range to the rounds it has seen, and widens the lookback to the rounds
it retains. What they come to is the rounds that all of them have seen, with the widest lookback,
in whatever order they are asked.

The module introduces:

* `tails`, `Tail.highest` — the tails among trackers, and the highest round a tail has in memory;
* `seenByAll`, `widest` — how far all tails can follow, and the widest lookback;
* `jointTicket` — the ticket that tails come to;
* `Pipeline.schedule_own` — that ticket is what a negotiation gives;
* `schedule_joint_range` — the same rounds and the same lookback in every order of the trackers.
-/

namespace CommitPipeline

/-- The tails among trackers, in order. -/
def tails (trackers : List Own) : List Tail :=
  trackers.filterMap fun
    | .tail u => some u
    | _ => none

/-- The highest round in memory, zero without any. -/
def Tail.highest (u : Tail) : Nat := (u.entries.rounds.map Round.toNat).max?.getD 0

/-- Of so many rounds above the durable one, how many every tail has seen. -/
def seenByAll (durable : Round) (most : Nat) (us : List Tail) : Nat :=
  (most :: us.map fun u => u.highest - durable.toNat).min (List.cons_ne_nil _ _)

/-- The widest of a lookback and those of the tails. -/
def widest (lookback : Nat) (us : List Tail) : Nat :=
  (lookback :: us.map fun u => u.retain.toNat).max (List.cons_ne_nil _ _)

/-- The ticket that tails come to for a proposal of so many rounds above the durable one: the rounds
that all have seen, with the widest lookback. There is none if that is no round, or if a tail has
seen none at all. -/
def jointTicket (durable committed : Round) (most lookback : Nat) (us : List Tail) :
    Option Ticket :=
  if (∃ u ∈ us, u.entries.rounds = []) ∨ seenByAll durable most us = 0 then none
  else some {
    range := ⟨durable, .ofNat (seenByAll durable most us), .ofNat (widest lookback us)⟩
    committed }

theorem RoundTable.last?_eq_none_iff {α : Type} {t : RoundTable α} :
    t.last? = none ↔ t.rounds = [] :=
  List.getLast?_eq_none_iff

namespace Tail

variable {u : Tail} {range range' : CommitRange}

/-- The highest round of a tail that has seen blocks. -/
theorem highest_of_last? {last : Round} (h : u.entries.last? = some last) :
    u.highest = last.toNat := by
  have hmem : last ∈ u.entries.rounds := List.mem_of_getLast? h
  have hmax : (u.entries.rounds.map Round.toNat).max? = some last.toNat := by
    refine List.max?_eq_some_iff.mpr ⟨List.mem_map_of_mem hmem, ?_⟩
    -- Rows are in ascending order, so no round in memory is above the last one.
    rintro _ hn
    obtain ⟨r, hr, rfl⟩ := List.mem_map.mp hn
    obtain ⟨a, ha⟩ := RoundTable.mem_rounds_iff.mp hr
    obtain ⟨last', hlast, hle⟩ := RoundTable.exists_last? (ha ▸ rfl : (u.entries.get? r).isSome)
    obtain rfl : last = last' := Option.some.inj (h.symm.trans hlast)
    exact hle
  rw [highest, hmax, Option.getD_some]

/-- A tail cuts a range to the highest round it has seen and widens its lookback. -/
theorem of_refine (h : u.refine range = some range') :
    u.entries.rounds ≠ [] ∧ range'.base = range.base ∧
      range'.length.toNat = min range.length.toNat (u.highest - range.base.toNat) ∧
      range'.lookback.toNat = max range.lookback.toNat u.retain.toNat := by
  obtain ⟨last, hlast, rfl⟩ := Option.map_eq_some_iff.mp h
  refine ⟨fun hnil => ?_, rfl, ?_, Word.toNat_max _ _⟩
  · rw [RoundTable.last?_eq_none_iff.mpr hnil] at hlast
    cases hlast
  · rw [highest_of_last? hlast]
    show (min range.length (last.since range.base)).toNat = _
    rw [Word.toNat_min, Round.toNat_since]

/-- A tail objects to a range exactly as long as it holds no round. -/
theorem refine_eq_none_iff : u.refine range = none ↔ u.entries.rounds = [] := by
  rw [refine, Option.map_eq_none_iff, RoundTable.last?_eq_none_iff]

end Tail

/-! ## Asking one after the other -/

section Order

variable {committed durable : Round} {trackers : List Own} {fx : Effects} {g g' : CommitRange}

/-- Trackers that agree on a range have all seen rounds, and leave those that all have seen. -/
theorem Agreed.joint (h : Agreed committed durable trackers fx g g') :
    (∀ u ∈ tails trackers, u.entries.rounds ≠ []) ∧ g'.base = g.base ∧
      g'.length.toNat = seenByAll g.base g.length.toNat (tails trackers) ∧
      g'.lookback.toNat = widest g.lookback.toNat (tails trackers) := by
  induction h with
  | done fx g => exact ⟨nofun, rfl, rfl, rfl⟩
  | @next t t' rest fx fx' g g₁ g₂ hmade _ ih =>
    cases t with
    | memory b | durable b =>
      cases hmade
      exact ih
    | guest e => exact e.elim
    | tail u =>
      obtain ⟨hseen, hbase, hlength, hlookback⟩ := ih
      have hrefined : u.refine g = some g₁ := Except.ok.inj (congrArg Prod.fst hmade)
      obtain ⟨hrounds, hbase₁, hlength₁, hlookback₁⟩ := Tail.of_refine hrefined
      -- Minimum and maximum are taken from the left, as the range goes from hand to hand.
      rw [hbase₁, hlength₁] at hlength
      rw [hlookback₁] at hlookback
      rw [hbase₁] at hbase
      exact ⟨List.forall_mem_cons.mpr ⟨hrounds, hseen⟩, hbase, hlength, hlookback⟩

/-- A tracker that refuses is a tail that has seen no round. -/
theorem Vetoed.exists_tail (h : Vetoed committed durable trackers fx g) :
    ∃ u ∈ tails trackers, u.entries.rounds = [] := by
  induction h with
  | @here t rest fx g hrefused =>
    cases t with
    | memory b | durable b => cases hrefused
    | guest e => exact e.elim
    | tail u =>
      exact ⟨u, List.mem_cons_self, Tail.refine_eq_none_iff.mp (Except.ok.inj hrefused)⟩
  | @later t t' rest fx fx' g g' hmade _ ih =>
    obtain ⟨u, hu, hnil⟩ := ih
    refine ⟨u, ?_, hnil⟩
    cases t with
    | memory b | durable b => exact hu
    | guest e => exact e.elim
    | tail u' => exact List.mem_cons_of_mem _ hu

end Order

/-! ## What tails come to -/

section Joint

variable {durable committed : Round} {most lookback : Nat} {us us' : List Tail}

/-- No tail makes the end higher. -/
theorem seenByAll_le : seenByAll durable most us ≤ most :=
  List.min_le_of_mem List.mem_cons_self

/-- The lowest of the highest rounds does not depend on the order. -/
theorem seenByAll_perm (h : us.Perm us') :
    seenByAll durable most us = seenByAll durable most us' :=
  (h.map _).foldl_eq most

/-- Nor does the widest lookback. -/
theorem widest_perm (h : us.Perm us') : widest lookback us = widest lookback us' :=
  (h.map _).foldl_eq lookback

/-- The widest lookback is a word, as those of the tails are. -/
theorem widest_lt (hlookback : lookback < Round.limit) : widest lookback us < Round.limit := by
  have hmem := List.max_mem (List.cons_ne_nil lookback (us.map fun u => u.retain.toNat))
  rcases List.mem_cons.mp hmem with heq | hretain
  · rw [widest, heq]
    exact hlookback
  · obtain ⟨u, -, heq⟩ := List.mem_map.mp hretain
    rw [widest, ← heq]
    exact u.retain.toNat_lt

/-- So the ticket that tails agree on does not depend on their order. -/
theorem jointTicket_perm (h : us.Perm us') :
    jointTicket durable committed most lookback us =
      jointTicket durable committed most lookback us' := by
  simp only [jointTicket, seenByAll_perm h, widest_perm h, h.mem_iff]

/-- There is no ticket exactly if some tail holds no round, or no round above the durable one was
seen by all. -/
theorem jointTicket_eq_none_iff :
    jointTicket durable committed most lookback us = none ↔
      (∃ u ∈ us, u.entries.rounds = []) ∨ seenByAll durable most us = 0 := by
  unfold jointTicket
  split
  · next hnone => exact iff_of_true rfl hnone
  · next hsome => exact iff_of_false nofun hsome

end Joint

namespace Pipeline

variable {p : Pipeline Own} {committed : Round} {lookback : UInt64}

/-- An idle pipeline over the library's own trackers gives the ticket its tails come to. -/
theorem schedule_own (hidle : p.inFlight = false) :
    (p.schedule committed lookback).1 = .ok (jointTicket p.durable committed
      (min (committed.toNat - lookback.toNat - p.durable.toNat) p.config.maxRounds.toNat)
      lookback.toNat (tails p.trackers)) := by
  have hlength := toNat_length_propose (p := p) committed lookback
  obtain ⟨hnone, hwhy⟩ | ⟨g, hsome, -, hlong, -, hpos, hagreed⟩ :=
    schedule_cases (p := p) committed lookback fun t _ => t.onlyNarrows fun e => e.elim
  · rw [hnone, Except.ok.injEq, eq_comm, jointTicket_eq_none_iff]
    -- Whatever it is that left no ticket, the tails alone account for it.
    rcases hwhy with hset | hempty | hvetoed | ⟨g, hagreed, hzero⟩
    · rw [hidle] at hset
      cases hset
    · exact .inr (Nat.eq_zero_of_le_zero (isEmpty_propose_iff.mp hempty ▸ seenByAll_le))
    · exact .inl hvetoed.exists_tail
    · obtain ⟨-, -, hseen, -⟩ := hagreed.joint
      rw [hlength, hzero] at hseen
      exact .inr hseen.symm
  · obtain ⟨hrounds, hbase, hseen, hlookback⟩ := hagreed.joint
    rw [hlength] at hseen
    replace hbase : g.base = p.durable := hbase
    replace hseen : g.length.toNat = seenByAll p.durable _ _ := hseen
    replace hlookback : g.lookback.toNat = widest lookback.toNat _ := hlookback
    rw [hsome, jointTicket, if_neg, ← hseen, ← hlookback, UInt64.ofNat_toNat, UInt64.ofNat_toNat,
      ← hbase]
    rintro (⟨u, hu, hnil⟩ | hzero)
    · exact hrounds u hu hnil
    · exact hpos (UInt64.toNat_inj.mp (hseen.trans hzero))

/-- The range of a ticket, in numbers. -/
theorem of_schedule_own {k : Ticket} (h : (p.schedule committed lookback).1 = .ok (some k)) :
    let length := seenByAll p.durable
      (min (committed.toNat - lookback.toNat - p.durable.toNat) p.config.maxRounds.toNat)
      (tails p.trackers)
    k.range.base = p.durable ∧ k.range.length.toNat = length ∧
      k.range.lookback.toNat = widest lookback.toNat (tails p.trackers) ∧
      k.committed = committed ∧ length ≠ 0 := by
  intro length
  have hidle := ((p.inFlight_schedule committed lookback).1 k h).1
  have hjoint := Except.ok.inj ((schedule_own hidle).symm.trans h)
  have hmost : length < Round.limit := Nat.lt_of_le_of_lt
    (Nat.le_trans seenByAll_le (Nat.min_le_right _ _)) p.config.maxRounds.toNat_lt
  unfold jointTicket at hjoint
  split at hjoint <;> cases hjoint
  next hsome =>
  exact ⟨rfl, UInt64.toNat_ofNat_of_lt' hmost,
    UInt64.toNat_ofNat_of_lt' (widest_lt lookback.toNat_lt), rfl, fun hzero => hsome (.inr hzero)⟩

end Pipeline

/-- Take an idle pipeline over bulletins and any number of tails, and any committed round and
lookback. A negotiation is not cut short. It gives no ticket exactly if nothing was there to be
proposed, if a tail has no round in memory, or if the tails have no round above the durable one in
common; any other time the ticket has as many of the proposed rounds as every tail has seen, and the
widest of all lookbacks. With its trackers in any other order the pipeline gives the same answer. -/
theorem schedule_joint_range (p : Pipeline Own) (hidle : p.inFlight = false) (committed : Round)
    (lookback : UInt64) :
    let us := tails p.trackers
    let most := min (committed.toNat - lookback.toNat - p.durable.toNat) p.config.maxRounds.toNat
    let length := seenByAll p.durable most us
    (∃ answer, (p.schedule committed lookback).1 = .ok answer ∧
      (answer = none ↔ most = 0 ∨ (∃ u ∈ us, u.entries.rounds = []) ∨ length = 0) ∧
      ∀ k, answer = some k → k.range.base = p.durable ∧ k.range.length.toNat = length ∧
        k.range.lookback.toNat = widest lookback.toNat us ∧ k.committed = committed) ∧
    ∀ trackers, trackers.Perm p.trackers →
      (Pipeline.schedule committed lookback { p with trackers }).1 =
        (p.schedule committed lookback).1 := by
  intro us most length
  have hanswer : (p.schedule committed lookback).1 =
      .ok (jointTicket p.durable committed most lookback.toNat us) := Pipeline.schedule_own hidle
  refine ⟨⟨_, hanswer, ?_, fun k hk => ?_⟩, fun trackers hperm => ?_⟩
  · rw [jointTicket_eq_none_iff]
    -- Without a proposal there is nothing that all could have seen.
    exact ⟨.inr, fun h => h.elim (fun hnone => .inr (Nat.eq_zero_of_le_zero (hnone ▸ seenByAll_le)))
      id⟩
  · obtain ⟨hbase, hlength, hlookback, hcommitted, -⟩ :=
      Pipeline.of_schedule_own (hanswer.trans (congrArg Except.ok hk))
    exact ⟨hbase, hlength, hlookback, hcommitted⟩
  · have hother : (Pipeline.schedule committed lookback { p with trackers }).1 =
        .ok (jointTicket p.durable committed most lookback.toNat (tails trackers)) :=
      Pipeline.schedule_own hidle
    rw [hother, hanswer]
    exact congrArg Except.ok (jointTicket_perm (hperm.filterMap _))

/-- Two tails, of which one retains three rounds and has seen the sixth, the other retains five and
has seen the fourth. -/
def unequalTails : List Own :=
  [.tail { Tail.keeping 3 with entries := RoundTable.empty.insert ⟨6⟩ default }, .memory {},
    .tail { Tail.keeping 5 with entries := RoundTable.empty.insert ⟨4⟩ default }, .durable {}]

/-- Both together take four rounds with a lookback of five, whichever of the two comes first. -/
theorem schedule_joint_range_unequalTails :
    let p : Pipeline Own := { trackers := unequalTails, config := {}, store := .empty }
    let k : Ticket := ⟨⟨.zero, 4, 5⟩, ⟨10⟩, false⟩
    p.inFlight = false ∧ unequalTails.reverse.Perm unequalTails ∧
      (p.schedule ⟨10⟩ 1).1 = .ok (some k) ∧
      (Pipeline.schedule ⟨10⟩ 1 { p with trackers := unequalTails.reverse }).1 = .ok (some k) := by
  refine ⟨rfl, List.reverse_perm _, rfl, ?_⟩
  exact (schedule_joint_range { trackers := unequalTails, config := {}, store := .empty } rfl ⟨10⟩
    1).2 _ (List.reverse_perm _)

end CommitPipeline
