import CommitPipeline.Proofs.BulletinHistory
import Mathlib.Data.Set.Card

/-!
# The rounds that are waited for

A bulletin makes a signal when somebody is the first to wait for a round, and forgets it when the
round is announced or when it starts afresh. So at any time its table holds the rounds above the
latest one that somebody asked for since the last fresh start, each with a signal of its own. The
signal of a handle fires, stays in the table, or is orphaned by a fresh start, and which of these
has happened tells whose signal it is.

The module introduces:

* `Bulletin.WaitedSince` — somebody asked for a round since the last fresh start;
* `Bulletin.isSome_pending_runAll_iff` — the table against the history;
* `Bulletin.Given` — a handle that was given in a history;
* `Bulletin.Given.fate` — what has become of the signal of a handle;
* `Bulletin.pending_exact` — the number of pending rounds, and which handles share a signal.
-/

namespace CommitPipeline

/-- A table has as many rows as there are rounds that have one. -/
theorem RoundTable.size_eq_ncard {α : Type} {t : RoundTable α} {held : Set Round}
    (hheld : ∀ r, (t.get? r).isSome ↔ r ∈ held) : t.size = held.ncard := by
  have heq : held = t.rounds.toFinset := by
    ext r
    rw [← hheld, List.coe_toFinset, Set.mem_ofPred_eq, mem_rounds_iff, Option.isSome_iff_exists]
  rw [heq, Set.ncard_coe_finset, List.toFinset_card_of_nodup t.nodup_rounds, rounds,
    List.length_map, size]

namespace Bulletin

variable {x : Bulletin × Effects} {q r : Round} {s : SignalId} {uses after : List Use}
  {handle : Handle}

/-! ## The table -/

/-- Somebody asked for the round since the last fresh start, or since the beginning if there was
none. -/
def WaitedSince (r : Round) (uses : List Use) : Prop :=
  ∃ before after, uses = before ++ .wait r :: after ∧ ∀ latest, .restart latest ∉ after

theorem not_waitedSince_nil : ¬ WaitedSince r [] := by
  rintro ⟨before, after, heq, -⟩
  simp at heq

theorem waitedSince_concat_iff {use : Use} :
    WaitedSince r (uses ++ [use]) ↔
      use = .wait r ∨ (∀ latest, use ≠ .restart latest) ∧ WaitedSince r uses := by
  constructor
  · rintro ⟨before, after, heq, hnone⟩
    -- The round was asked for by the last use, or by one before it.
    obtain rfl | ⟨after, last, rfl⟩ := List.eq_nil_or_concat' after
    · exact .inl (List.append_singleton_inj.1 heq).2
    · rw [← List.cons_append, ← List.append_assoc] at heq
      obtain ⟨rfl, rfl⟩ := List.append_singleton_inj.1 heq
      refine .inr ⟨fun latest hlast => hnone latest ?_, before, after, rfl, fun latest hmem =>
        hnone latest (List.mem_append_left _ hmem)⟩
      exact List.mem_append_right _ (List.mem_singleton.2 hlast.symm)
  · rintro (rfl | ⟨hnot, before, after, rfl, hnone⟩)
    · exact ⟨uses, [], rfl, by simp⟩
    · refine ⟨before, after ++ [use], by simp, fun latest hmem => ?_⟩
      obtain hmem | hmem := List.mem_append.1 hmem
      · exact hnone latest hmem
      · exact hnot latest (List.mem_singleton.1 hmem).symm

/-- A wait enters its round unless this was announced, and takes none out. -/
theorem isSome_pending_wait_iff (b : Bulletin) (board : SignalBoard) :
    ((b.wait board r).2.1.pending.get? q).isSome ↔
      (b.pending.get? q).isSome ∨ q = r ∧ b.latest < r := by
  by_cases hle : r ≤ b.latest
  · rw [wait, if_pos hle, or_iff_left fun h => Nat.not_lt.2 hle h.2]
  have hlt : b.latest < r := Nat.not_le.1 hle
  rw [wait, if_neg hle, and_iff_left hlt]
  cases hget : b.pending.get? r with
  | some s =>
    refine (or_iff_left_of_imp ?_).symm
    rintro rfl
    exact Option.isSome_of_eq_some hget
  | none =>
    show ((b.pending.insert r _).get? q).isSome ↔ _
    rw [RoundTable.get?_insert]
    by_cases hq : q = r <;> simp [hq]

/-- One use and the table, if there is nothing in it but rounds above the latest one. -/
theorem isSome_pending_run_iff (hlatest : ∀ q, (x.1.pending.get? q).isSome → x.1.latest < q)
    (use : Use) :
    ((use.run x).1.pending.get? q).isSome ↔
      (use.run x).1.latest < q ∧
        (use = .wait q ∨ (∀ latest, use ≠ .restart latest) ∧ (x.1.pending.get? q).isSome) := by
  cases use with
  | wait r =>
    have hsame : ((Use.wait r).run x).1.latest = x.1.latest := latest_wait (b := x.1) rfl
    rw [hsame, Use.run, isSome_pending_wait_iff]
    constructor
    · rintro (hq | ⟨rfl, hlt⟩)
      · exact ⟨hlatest q hq, .inr ⟨by simp, hq⟩⟩
      · exact ⟨hlt, .inl rfl⟩
    · rintro ⟨hlt, heq | ⟨-, hq⟩⟩
      · obtain rfl := Use.wait.inj heq
        exact .inr ⟨rfl, hlt⟩
      · exact .inl hq
  | announce n =>
    rcases announce_cases n x.1 x.2 with ⟨-, heq⟩ | ⟨-, hannounced⟩
    · have hsame : (Use.announce n).run x = x := by rw [Use.run, heq]
      rw [hsame]
      simpa using hlatest q
    -- The rounds up to the announced one go, and this is then the latest.
    · rw [Use.run, hannounced.pending, hannounced.latest]
      by_cases hle : q ≤ n
      · rw [if_pos hle]
        exact iff_of_false Bool.false_ne_true fun h => Nat.not_lt.2 hle h.1
      · have hlt : n < q := Nat.not_le.1 hle
        simp [hle, hlt]
  | restart latest => exact iff_of_false Bool.false_ne_true (by simp)

/-- The table holds the rounds above the latest one that somebody asked for since the last fresh
start. -/
theorem isSome_pending_runAll_iff (latest : Round) (fx : Effects) (uses : List Use) (q : Round) :
    ((runAll uses (startingAt latest, fx)).1.pending.get? q).isSome ↔
      (runAll uses (startingAt latest, fx)).1.latest < q ∧ WaitedSince q uses := by
  induction uses using List.reverseRecOn generalizing q with
  | nil => exact iff_of_false nofun fun h => not_waitedSince_nil h.2
  | append_singleton uses use ih =>
    rw [runAll_append, waitedSince_concat_iff]
    show ((use.run _).1.pending.get? q).isSome ↔ (use.run _).1.latest < q ∧ _
    rw [isSome_pending_run_iff (fun q hq => ((ih q).1 hq).1) use]
    -- A use that leaves the table alone but for announced rounds does not lower the latest round.
    refine and_congr_right fun hlt => or_congr_right (and_congr_right fun hnot => ?_)
    have hle := latest_le_run hnot (runAll uses (startingAt latest, fx))
    rw [ih q]
    exact and_iff_right (Nat.lt_of_le_of_lt hle hlt)

/-! ## The signals of handles -/

/-- In a history that begins at `x`, a handle was given for a round, and `after` is what was done
since. -/
def Given (x : Bulletin × Effects) (uses : List Use) (r : Round) (handle : Handle)
    (after : List Use) : Prop :=
  ∃ before, uses = before ++ .wait r :: after ∧
    ((runAll before x).1.wait (runAll before x).2.signals r).1 = handle

/-- The signal of a pending round fires, stays pending, or is orphaned by a fresh start. -/
theorem Tidy.fate (hx : Tidy x) (hpending : x.1.pending.get? r = some s) (uses : List Use) :
    (Bulletin.runAll uses x).2.signals.isFired s ∨
      ((∀ latest, .restart latest ∉ uses) ∧
        (Bulletin.runAll uses x).1.pending.get? r = some s) ∨
      (∃ latest, .restart latest ∈ uses) ∧ Orphaned s (Bulletin.runAll uses x) := by
  -- By induction on the history, as long as nothing fires or orphans the signal.
  induction uses generalizing x with
  | nil => exact .inr (.inl ⟨by simp, hpending⟩)
  | cons use rest ih =>
    obtain ⟨-, -, -, -, hfired⟩ | ⟨hnot, -, hstill⟩ | ⟨latest, rfl, horphaned⟩ :=
      hx.pending_run hpending use
    · exact .inl (isFired_runAll hfired rest)
    · refine (ih (hx.run use) hstill).imp_right (.imp ?_ ?_)
      · rintro ⟨hnone, hpending⟩
        refine ⟨fun latest hmem => ?_, hpending⟩
        obtain heq | hmem := List.mem_cons.1 hmem
        · exact hnot latest heq.symm
        · exact hnone latest hmem
      · rintro ⟨⟨latest, hmem⟩, horphaned⟩
        exact ⟨⟨latest, List.mem_cons_of_mem _ hmem⟩, horphaned⟩
    · exact .inr (.inr ⟨⟨latest, List.mem_cons_self⟩, horphaned.runAll rest⟩)

/-- A handle is ready, or its round is pending with its signal, or a fresh start has orphaned
this. -/
theorem Given.fate (hx : Tidy x) (h : Given x uses r handle after) :
    handle.isReady (runAll uses x).2.signals ∨
      ∃ s, handle = .on s ∧
        (((∀ latest, .restart latest ∉ after) ∧ (runAll uses x).1.pending.get? r = some s) ∨
          (∃ latest, .restart latest ∈ after) ∧ Orphaned s (runAll uses x)) := by
  obtain ⟨before, rfl, rfl⟩ := h
  have htaken : Tidy (runAll before x) := hx.runAll before
  rw [runAll_append]
  by_cases hle : r ≤ (runAll before x).1.latest
  · rw [wait, if_pos hle]
    exact .inl rfl
  · obtain ⟨s, hhandle, hpending⟩ := exists_pending_wait hle
    rw [hhandle]
    exact ((htaken.wait r).fate hpending after).imp_right fun h => ⟨s, rfl, h⟩

/-- Since the last fresh start a handle that is not ready stands for what the table has for its
round. -/
theorem Given.pending (hx : Tidy x) (h : Given x uses r handle after)
    (hnone : ∀ latest, .restart latest ∉ after)
    (hunready : ¬ handle.isReady (runAll uses x).2.signals) :
    ∃ s, handle = .on s ∧ (runAll uses x).1.pending.get? r = some s := by
  obtain hready | ⟨s, hhandle, ⟨-, hpending⟩ | ⟨⟨latest, hmem⟩, -⟩⟩ := h.fate hx
  · exact absurd hready hunready
  · exact ⟨s, hhandle, hpending⟩
  · exact absurd hmem (hnone latest)

/-- Over every history of a bulletin:
* as many rounds are pending as there are rounds above the latest one that somebody asked for since
  the last fresh start;
* every pending round is above the latest one, and its signal has not fired;
* a handle that was taken since then and is not ready has its signal in common with the handles that
  were taken for its round since then and are not ready, and with no others, be they for other
  rounds or from before the last fresh start. -/
theorem pending_exact (latest : Round) {fx : Effects}
    (hboard : ∀ s, fx.signals.isFired s → s < fx.signals.made) (uses : List Use) :
    let now := runAll uses (startingAt latest, fx)
    now.1.pendingCount = {r | now.1.latest < r ∧ WaitedSince r uses}.ncard ∧
      (∀ r s, now.1.pending.get? r = some s →
        now.1.latest < r ∧ ¬ now.2.signals.isFired s) ∧
      ∀ r handle after, Given (startingAt latest, fx) uses r handle after →
        (∀ l, .restart l ∉ after) → ¬ handle.isReady now.2.signals →
        ∀ r' handle' after', Given (startingAt latest, fx) uses r' handle' after' →
          (handle' = handle ↔
            r' = r ∧ (∀ l, .restart l ∉ after') ∧ ¬ handle'.isReady now.2.signals) := by
  intro now
  have htidy : Tidy (startingAt latest, fx) := tidy_startingAt latest hboard
  have hnow : Tidy now := htidy.runAll uses
  have htable := isSome_pending_runAll_iff latest fx uses
  refine ⟨RoundTable.size_eq_ncard htable, fun r s hpending => ⟨?_, hnow.unfired r s hpending⟩, ?_⟩
  · exact ((htable r).1 (Option.isSome_of_eq_some hpending)).1
  intro r handle after hgiven hnone hunready r' handle' after' hgiven'
  -- An unready handle from after the last restart has its signal in the table.
  obtain ⟨s, rfl, hpending⟩ := hgiven.pending htidy hnone hunready
  constructor
  · rintro rfl
    -- Of the three ends of the other handle only one goes with a signal in the table.
    obtain hready | ⟨s', heq, ⟨hnone', hpending'⟩ | ⟨-, horphaned⟩⟩ := hgiven'.fate htidy
    · exact absurd hready hunready
    · obtain rfl := Handle.on.inj heq
      exact ⟨hnow.own r' r s hpending' hpending, hnone', hunready⟩
    · obtain rfl := Handle.on.inj heq
      exact absurd hpending (horphaned.unknown r)
  · rintro ⟨rfl, hnone', hunready'⟩
    obtain ⟨s', rfl, hpending'⟩ := hgiven'.pending htidy hnone' hunready'
    rw [Option.some.inj (hpending'.symm.trans hpending)]

/-- Somebody asks for round 5, the bulletin starts afresh at round 2, and somebody asks for round 7
before and after round 6 is announced. -/
def askedTwice : List Use := [.wait ⟨5⟩, .restart ⟨2⟩, .wait ⟨7⟩, .announce ⟨6⟩, .wait ⟨7⟩]

/-- One round is pending then. The two handles for it are the same, and the orphaned one for round 5
is another one. -/
theorem pending_exact_askedTwice :
    let x := (startingAt ⟨3⟩, ({} : Effects))
    let now := runAll askedTwice x
    (∀ s, x.2.signals.isFired s → s < x.2.signals.made) ∧
      {r | now.1.latest < r ∧ WaitedSince r askedTwice}.ncard = 1 ∧
      ∃ first second old, Given x askedTwice ⟨7⟩ first [.announce ⟨6⟩, .wait ⟨7⟩] ∧
        Given x askedTwice ⟨7⟩ second [] ∧
        Given x askedTwice ⟨5⟩ old [.restart ⟨2⟩, .wait ⟨7⟩, .announce ⟨6⟩, .wait ⟨7⟩] ∧
        ¬ first.isReady now.2.signals ∧ second = first ∧ old ≠ first := by
  intro x now
  have hboard : ∀ s, x.2.signals.isFired s → s < x.2.signals.made := nofun
  obtain ⟨hcount, -, hshared⟩ := pending_exact ⟨3⟩ hboard askedTwice
  have hfirst : Given x askedTwice ⟨7⟩ (.on 1) [.announce ⟨6⟩, .wait ⟨7⟩] :=
    ⟨[.wait ⟨5⟩, .restart ⟨2⟩], rfl, rfl⟩
  have hunready : ¬ (Handle.on 1).isReady now.2.signals := by decide
  have hiff := hshared ⟨7⟩ (.on 1) _ hfirst (by simp) hunready
  refine ⟨hboard, hcount.symm, .on 1, _, _, hfirst,
    ⟨[.wait ⟨5⟩, .restart ⟨2⟩, .wait ⟨7⟩, .announce ⟨6⟩], rfl, rfl⟩, ⟨[], rfl, rfl⟩, hunready,
    ?_, ?_⟩
  · exact (hiff ⟨7⟩ _ [] ⟨[.wait ⟨5⟩, .restart ⟨2⟩, .wait ⟨7⟩, .announce ⟨6⟩], rfl, rfl⟩).2
      ⟨rfl, by simp, hunready⟩
  · intro heq
    have hround := ((hiff ⟨5⟩ _ _ ⟨[], rfl, rfl⟩).1 heq).1
    exact absurd hround (by decide)

end Bulletin

end CommitPipeline
