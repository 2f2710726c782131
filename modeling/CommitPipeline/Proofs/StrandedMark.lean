import CommitPipeline.Proofs.Custody
import CommitPipeline.Tracker.Scripted
import Mathlib.Data.List.Induction

/-!
# How a mark is left behind

A mark that is set belongs to a ticket that somebody will run, unless whoever had to take it away
did not get to it: a caller whose cycle was cut short, a negotiation that was cut short under the
mark, or a worker that went down with tickets in its queue. Reports are turned away from then on,
and nobody who plays by the rules takes the mark away any more.

The module introduces:

* `Tally.ToRun` — some ticket will be run, or some cycle completed;
* `Tally.Wedged` — the mark is set, and nothing will be run;
* `wedged_iff_stranded` — a pipeline is wedged exactly if one of those deeds left the mark behind.
-/

namespace CommitPipeline

namespace Tally

variable {t : Tally}

/-- Something is still to be run: a ticket in a queue that somebody may still take from, what the
worker has in its hand, or a ticket that a caller holds. -/
def ToRun (t : Tally) : Prop := (t.queue ≠ [] ∧ t.gone = false) ∨ t.hand ≠ .free ∨ t.held ≠ []

/-- The mark of a cycle in flight is set, and nothing will be run. -/
def Wedged (t : Tally) : Prop := t.mark = true ∧ ¬t.ToRun

theorem Wedged.eq_free (h : t.Wedged) : t.hand = .free ∧ t.held = [] := by
  obtain ⟨-, hnone⟩ := h
  constructor
  · by_contra hhand
    exact hnone (.inr (.inl hhand))
  · by_contra hheld
    exact hnone (.inr (.inr hheld))

theorem toRun_or_wedged (hmark : t.mark = true) : t.ToRun ∨ t.Wedged := by
  by_cases hrun : t.ToRun
  · exact .inl hrun
  · exact .inr ⟨hmark, hrun⟩

end Tally

namespace Deed

variable {τ : Type} [Tracker τ] {n : Custody τ} {d : Deed} {t : Tally}

/-- A mark that is set after a deed goes with something to run, unless this deed left it behind or
it was left behind before. -/
theorem Leaves.toRun_or_strands (h : d.Leaves n t) (hmark : t.mark = true) :
    t.ToRun ∨ d.Strands n ∨ n.tally.Wedged := by
  cases h with
  | nothing => exact (Tally.toRun_or_wedged hmark).imp_right .inr
  | queues k hfree hopen => exact .inl (.inl ⟨by simp, hopen⟩)
  | gives k hfree => exact .inl (.inr (.inr (by simp)))
  | cutsNegotiation hfree hstrands => exact .inr (.inl hstrands)
  | cutsHeld hplace hstrands => exact .inr (.inl hstrands)
  -- Whoever runs a cycle to its end takes the mark away.
  | runsHeld hplace => cases hmark
  | runsOther hanswered => cases hmark
  | completes hran => cases hmark
  | takes hfree hopen hqueue => exact .inl (.inr (.inl nofun))
  | works hholding => exact .inl (.inr (.inl nofun))
  | followsUp k hran hopen => exact .inl (.inl ⟨by simp, hopen⟩)
  | cutsFollowUp mark hran hstrands => exact .inr (.inl hstrands)
  | retires hfree hstrands =>
    by_cases hqueue : n.tally.queue = []
    -- With an empty queue nothing goes down, and whoever else has a ticket still has it.
    · rcases Tally.toRun_or_wedged (t := n.tally) hmark with (⟨hne, -⟩ | hrest) | hwedged
      · exact absurd hqueue hne
      · exact .inl (.inr hrest)
      · exact .inr (.inr hwedged)
    · exact .inr (.inl (hstrands hqueue))

/-- A mark that was left behind stays, whatever is done but the cycle of some other ticket. -/
theorem Leaves.wedged (h : d.Leaves n t) (hother : ∀ k, d ≠ .commitOther k)
    (hn : n.tally.Wedged) : t.Wedged := by
  obtain ⟨hhand, hheld⟩ := hn.eq_free
  have hset := hn.1
  cases h with
  | nothing => exact hn
  -- The mark would have to be free, or somebody would have to have a ticket.
  | queues k hfree hopen => cases hfree.symm.trans hset
  | gives k hfree => cases hfree.symm.trans hset
  | cutsNegotiation hfree hstrands => cases hfree.symm.trans hset
  | runsHeld hplace => simp [hheld] at hplace
  | cutsHeld hplace hstrands => simp [hheld] at hplace
  | runsOther hanswered => exact absurd rfl (hother _)
  | works hholding => cases hholding.symm.trans hhand
  | completes hran => cases hran.symm.trans hhand
  | followsUp k hran hopen => cases hran.symm.trans hhand
  | cutsFollowUp mark hran hstrands => cases hran.symm.trans hhand
  | takes hfree hopen hqueue => exact absurd (.inl ⟨by simp [hqueue], hopen⟩) hn.2
  | retires hfree hstrands =>
    refine ⟨hset, ?_⟩
    rintro (⟨hne, -⟩ | hhand' | hheld')
    · exact hne rfl
    · exact hhand' hhand
    · exact hheld' hheld

/-! ## Runs -/

/-- A mark that is set without anything to run was left behind by some deed, and nobody has taken
it away since. -/
theorem exists_strands_of_wedged {first : Custody τ} (hfirst : ¬first.tally.Wedged)
    (deeds : List Deed) (h : (runAll deeds first).tally.Wedged) :
    ∃ before d after, deeds = before ++ d :: after ∧ d.Strands (runAll before first) ∧
      ∀ since, since <+: after →
        (runAll (before ++ d :: since) first).pipeline.inFlight = true := by
  -- By induction on the deeds, the latest one last: it left the mark behind, or it found it so.
  induction deeds using List.reverseRecOn with
  | nil => exact absurd h hfirst
  | append_singleton deeds d ih =>
    rw [runAll_append] at h
    have hmark : (d.run (runAll deeds first)).tally.mark = true := h.1
    rcases (leaves_run d (runAll deeds first)).toRun_or_strands hmark with hrun | hstrands | hn
    · exact absurd hrun h.2
    · refine ⟨deeds, d, [], rfl, hstrands, fun since hsince => ?_⟩
      obtain rfl := List.prefix_nil.mp hsince
      rw [runAll_append]
      exact hmark
    · obtain ⟨before, d₀, after, rfl, hstrands, hset⟩ := ih hn
      refine ⟨before, d₀, after ++ [d], by simp, hstrands, fun since hsince => ?_⟩
      rcases List.prefix_concat_iff.mp hsince with rfl | hsince
      · rw [← List.cons_append, ← List.append_assoc, runAll_append]
        exact hmark
      · exact hset since hsince

theorem wedged_runAll (h : n.tally.Wedged) {deeds : List Deed}
    (hother : ∀ k, .commitOther k ∉ deeds) : (runAll deeds n).tally.Wedged := by
  induction deeds generalizing n with
  | nil => exact h
  | cons d rest ih =>
    have hd : ∀ k, d ≠ .commitOther k := fun k heq => hother k (heq ▸ List.mem_cons_self)
    exact ih ((leaves_run d n).wedged hd h) fun k hmem => hother k (List.mem_cons_of_mem _ hmem)

end Deed

/-- Over every run of a pipeline from its opening on, with any trackers and in any order of calls:
the mark is set with nothing left to run exactly if nothing is left to run and some deed left the
mark behind, a negotiation cut short under it, a caller's cycle cut short, or a worker that went
down with tickets in its queue. From then on, whatever is done but the cycle of a ticket that nobody
was given, the pipeline stays so: no negotiation gives a ticket, and no report puts one into the
queue. -/
theorem wedged_iff_stranded {τ : Type} [Tracker τ] {trackers : List τ} {config : Config}
    {store : Store} {effects : Effects} {p : Pipeline τ}
    (hopen : Pipeline.open? trackers config store effects = .ok p) (deeds : List Deed) :
    let n := Deed.runAll deeds (.opened p)
    (n.tally.Wedged ↔ ¬n.tally.ToRun ∧
        ∃ before d after, deeds = before ++ d :: after ∧
          d.Strands (Deed.runAll before (.opened p)) ∧
            ∀ since, since <+: after →
              (Deed.runAll (before ++ d :: since) (.opened p)).pipeline.inFlight = true) ∧
      (n.tally.Wedged → ∀ later, (∀ k, .commitOther k ∉ later) →
        let m := Deed.runAll later n
        m.tally.Wedged ∧
          (∀ committed lookback, (m.pipeline.schedule committed lookback).1 = .ok none) ∧
            ∀ round, (m.pipeline.report round).2.queue = m.pipeline.queue) := by
  intro n
  refine ⟨⟨fun hwedged => ⟨hwedged.2, ?_⟩, ?_⟩, fun hwedged later hlater => ?_⟩
  · refine Deed.exists_strands_of_wedged ?_ deeds hwedged
    rw [Custody.tally_opened hopen]
    exact fun h => nomatch h.1
  · -- The mark was set behind the deed all along, so it is set at the end.
    rintro ⟨hnone, before, d, after, heq, -, hset⟩
    have hmark := hset after (List.prefix_refl _)
    rw [← heq] at hmark
    exact ⟨hmark, hnone⟩
  · have hm := Deed.wedged_runAll hwedged hlater
    exact ⟨hm, Pipeline.refused_of_inFlight hm.1⟩

/-- A pipeline with a tracker that is cut short when it hears that a cycle has landed. -/
def brittle : Pipeline (Member Scripted) :=
  { trackers := [.memory {}, .durable {}, .guest ⟨"brittle", { faultOnLanded := true }⟩]
    config := {}
    store := .empty }

/-- One round is delivered and negotiated, and the caller runs the cycle of the ticket it is
given. -/
def brittleDeeds : List Deed :=
  [.load emptyLedger, .newBlock (emptyBlock ⟨1⟩) (.empty ⟨1⟩), .schedule ⟨1⟩ 0, .commitHeld 0]

/-- The round is stored then, but the mark is left behind: no report is followed any more. -/
theorem wedged_iff_stranded_brittle :
    let n := Deed.runAll brittleDeeds (.opened brittle)
    n.pipeline.store.round = ⟨1⟩ ∧ n.tally.Wedged ∧
      ∀ round, (Deed.run (.report round) n).pipeline.queue = [] := by
  intro n
  have hnone : ¬n.tally.ToRun := by
    rintro (⟨hqueue, -⟩ | hhand | hheld)
    · exact hqueue rfl
    · exact hhand rfl
    · exact hheld rfl
  have hopen : Pipeline.open? brittle.trackers {} .empty {} = .ok brittle := rfl
  obtain ⟨hexact, hstays⟩ := wedged_iff_stranded hopen brittleDeeds
  have hcut : (Deed.commitHeld 0).Strands (Deed.runAll (brittleDeeds.take 3) (.opened brittle)) :=
    .commitHeld rfl rfl
  have hwedged : n.tally.Wedged := by
    refine hexact.mpr ⟨hnone, brittleDeeds.take 3, .commitHeld 0, [], rfl, hcut, ?_⟩
    intro since hsince
    obtain rfl := List.prefix_nil.mp hsince
    rfl
  exact ⟨rfl, hwedged, (hstays hwedged [] (by simp)).2.2⟩

end CommitPipeline
