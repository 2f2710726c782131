import CommitPipeline.Proofs.Custody

/-!
# Cycles that take another's mark away

The mark of a cycle in flight keeps negotiations from giving a second ticket while the first one is
out. It does not say whose it is, and whoever runs a cycle takes it away, also the cycle of a ticket
that was run before or that nobody negotiated. So tickets are given one at a time but for the cycles
that stray: those run for some other ticket while the mark belongs to one that is still out.

The module introduces:

* `Tally.out` — the tickets that were given and not run yet; `Tally.unsettled` counts with them the
  cycle that the worker has still to complete;
* `Deed.strays`, `Deed.strayCount` — whether a deed takes another's mark away, and how often that
  happens in a run;
* `out_le_strayCount` — at most one ticket is out for the mark, and one for each stray cycle.
-/

namespace CommitPipeline

namespace Hand

/-- The ticket in the hand of the worker, if its cycle was not run yet. -/
def tickets : Hand → List Ticket
  | holding k => [k]
  | free | ran _ => []

/-- How many cycles the worker has run and has still to complete. -/
def toComplete : Hand → Nat
  | ran _ => 1
  | free | holding _ => 0

end Hand

namespace Tally

/-- The tickets that were given and whose cycles were not run yet. Those that went down with the
queue never will be. -/
def out (t : Tally) : List Ticket := t.lost ++ t.queue ++ t.hand.tickets ++ t.held

/-- How many cycles were negotiated and are not over. -/
def unsettled (t : Tally) : Nat := t.out.length + t.hand.toComplete

/-- Tickets are counted by who has them. -/
theorem unsettled_eq (t : Tally) :
    t.unsettled = t.lost.length + t.queue.length + t.hand.tickets.length + t.held.length +
      t.hand.toComplete := by
  simp only [unsettled, out, List.length_append]

end Tally

namespace Deed

variable {τ : Type} [Tracker τ] {n : Custody τ} {d : Deed} {t : Tally} {count : Nat}

/-- Whether a cycle was cut short. -/
def isCut : Except Stop Outcome → Bool
  | .error (.fault _) => true
  | .ok _ | .error (.error _) => false

/-- A cycle strays if it is run to its end for some other ticket while the mark is set for one that
is not over. -/
def strays : Deed → Custody τ → Bool
  | commitOther k, n =>
    n.tally.mark && decide (0 < n.tally.unsettled) && !isCut (n.pipeline.commit k).1
  | _, _ => false

/-- How many cycles stray when deeds are done one after the other. -/
def strayCount : List Deed → Custody τ → Nat
  | [], _ => 0
  | d :: rest, n => (d.strays n).toNat + strayCount rest (d.run n)

theorem isCut_eq_false_iff {result : Except Stop Outcome} :
    isCut result = false ↔ ∀ f, result ≠ .error (.fault f) := by
  rcases result with (e | f) | o <;> simp [isCut]

/-- A stray cycle leaves all that was not over as it was, and the mark free. -/
theorem tally_of_strays (h : d.strays n = true) :
    (d.run n).tally = { n.tally with mark := false } ∧ 0 < n.tally.unsettled := by
  cases d with
  | commitOther k =>
    simp only [strays, Bool.and_eq_true, decide_eq_true_eq, Bool.not_eq_true'] at h
    obtain ⟨⟨-, hunsettled⟩, hcut⟩ := h
    exact ⟨tally_commitOther (isCut_eq_false_iff.mp hcut), hunsettled⟩
  | load | newBlock | close | startWorker | report | schedule | commitHeld | take | work | complete
  | retire => cases h

/-- A deed settles what it ran. It leaves more unsettled than the mark allows only where it strays,
and then by one. -/
theorem Leaves.unsettled_le (h : d.Leaves n t)
    (hn : n.tally.unsettled ≤ count + n.tally.mark.toNat) :
    t.unsettled ≤ count + (d.strays n).toNat + t.mark.toNat := by
  have hmark := n.tally.mark.toNat_le
  cases h with
  | nothing => omega
  | queues k hfree hopen =>
    simp only [Tally.unsettled_eq, hfree, Bool.toNat_false, Bool.toNat_true, List.length_append,
      List.length_singleton] at hn ⊢
    omega
  | gives k hfree =>
    simp only [Tally.unsettled_eq, hfree, Bool.toNat_false, Bool.toNat_true, List.length_append,
      List.length_singleton] at hn ⊢
    omega
  | cutsNegotiation hfree hstrands =>
    simp only [Tally.unsettled_eq, hfree, Bool.toNat_false, Bool.toNat_true] at hn ⊢
    omega
  -- One ticket less is out, so it does not matter what becomes of the mark.
  | runsHeld hplace =>
    simp only [Tally.unsettled_eq, List.length_eraseIdx, if_pos hplace, Bool.toNat_false] at hn ⊢
    omega
  | cutsHeld hplace hstrands =>
    simp only [Tally.unsettled_eq, List.length_eraseIdx, if_pos hplace] at hn ⊢
    omega
  | @runsOther k hanswered =>
    have hstrays : (Deed.commitOther k).strays n =
        (n.tally.mark && decide (0 < n.tally.unsettled)) := by
      rw [strays, isCut_eq_false_iff.mpr hanswered, Bool.not_false, Bool.and_true]
    show n.tally.unsettled ≤ _
    -- Without the mark there is nothing to take away, and with nothing unsettled nobody's mark.
    rw [hstrays]
    cases hset : n.tally.mark with
    | false => simpa [hset] using hn
    | true =>
      by_cases hsome : 0 < n.tally.unsettled
      · simpa [hset, hsome] using hn
      · omega
  | takes hfree hopen hqueue =>
    simp only [Tally.unsettled_eq, hfree, hqueue, Hand.tickets, Hand.toComplete, List.length_cons,
      List.length_nil] at hn ⊢
    omega
  | works hholding =>
    simp only [Tally.unsettled_eq, hholding, Hand.tickets, Hand.toComplete, List.length_cons,
      List.length_nil] at hn ⊢
    omega
  -- One cycle less is to be completed, so the mark that it gives back is not missed.
  | completes hran =>
    simp only [Tally.unsettled_eq, hran, Hand.tickets, Hand.toComplete, List.length_nil] at hn ⊢
    omega
  | followsUp k hran hopen =>
    simp only [Tally.unsettled_eq, hran, Hand.tickets, Hand.toComplete, List.length_nil,
      List.length_append, List.length_singleton, Bool.toNat_true] at hn ⊢
    omega
  -- What goes down with the queue is still counted: it was given, and will not be run.
  | cutsFollowUp mark hran hstrands =>
    simp only [Tally.unsettled_eq, hran, Hand.tickets, Hand.toComplete, List.length_nil,
      List.length_append] at hn ⊢
    omega
  | retires hfree hstrands =>
    simp only [Tally.unsettled_eq, List.length_nil, List.length_append] at hn ⊢
    omega

/-! ## Runs -/

/-- Strays of two runs in a row add up. -/
theorem strayCount_append (first second : List Deed) (n : Custody τ) :
    strayCount (first ++ second) n = strayCount first n + strayCount second (runAll first n) := by
  induction first generalizing n with
  | nil => simp [strayCount, runAll]
  | cons d rest ih =>
    rw [List.cons_append, strayCount, strayCount, ih, Nat.add_assoc]
    rfl

/-- However deeds are ordered, what is unsettled is allowed for by the mark and by cycles that
strayed. -/
theorem unsettled_le_strayCount (deeds : List Deed)
    (hn : n.tally.unsettled ≤ count + n.tally.mark.toNat) :
    (runAll deeds n).tally.unsettled ≤
      count + strayCount deeds n + (runAll deeds n).tally.mark.toNat := by
  induction deeds generalizing n count with
  | nil => exact hn
  | cons d rest ih =>
    have hrest := ih ((leaves_run d n).unsettled_le hn)
    rw [strayCount, ← Nat.add_assoc]
    exact hrest

/-- Where strays are counted there is a deed that is one. -/
theorem exists_strays_of_strayCount_pos {deeds : List Deed} {n : Custody τ}
    (h : 0 < strayCount deeds n) :
    ∃ before d after, deeds = before ++ d :: after ∧ d.strays (runAll before n) = true := by
  induction deeds generalizing n with
  | nil => exact absurd h (Nat.lt_irrefl 0)
  | cons d rest ih =>
    cases hd : d.strays n with
    | true => exact ⟨[], d, rest, rfl, hd⟩
    | false =>
      rw [strayCount, hd, Bool.toNat_false, Nat.zero_add] at h
      obtain ⟨before, d', after, rfl, hstrays⟩ := ih h
      exact ⟨d :: before, d', after, rfl, hstrays⟩

/-! ## From the opening on -/

section Opened

variable {trackers : List τ} {config : Config} {store : Store} {effects : Effects} {p : Pipeline τ}

/-- The bound from the start, where nobody has a ticket. -/
theorem unsettled_opened_le (hopen : Pipeline.open? trackers config store effects = .ok p)
    (deeds : List Deed) :
    (runAll deeds (.opened p)).tally.unsettled ≤
      strayCount deeds (.opened p) + (runAll deeds (.opened p)).tally.mark.toNat := by
  have hfirst : (Custody.opened p).tally.unsettled ≤ 0 + (Custody.opened p).tally.mark.toNat := by
    rw [Custody.tally_opened hopen]
    exact Nat.le_refl 0
  simpa only [Nat.zero_add] using unsettled_le_strayCount deeds hfirst

/-- With more unsettled than strayed, one of them has the mark. -/
theorem inFlight_of_strayCount_lt (hopen : Pipeline.open? trackers config store effects = .ok p)
    {deeds : List Deed}
    (hlt : strayCount deeds (.opened p) < (runAll deeds (.opened p)).tally.unsettled) :
    (runAll deeds (.opened p)).pipeline.inFlight = true := by
  have hle := unsettled_opened_le hopen deeds
  cases hmark : (runAll deeds (.opened p)).tally.mark with
  | true => exact hmark
  | false =>
    rw [hmark, Bool.toNat_false] at hle
    omega

/-- The mark is set whenever something is unsettled, as long as no cycle strays and no longer. -/
theorem strayCount_eq_zero_iff (hopen : Pipeline.open? trackers config store effects = .ok p)
    (deeds : List Deed) :
    strayCount deeds (.opened p) = 0 ↔ ∀ before after, deeds = before ++ after →
      0 < (runAll before (.opened p)).tally.unsettled →
        (runAll before (.opened p)).pipeline.inFlight = true := by
  constructor
  · rintro hnone before after rfl hsome
    rw [strayCount_append] at hnone
    have hbefore : strayCount before (.opened p) = 0 := by omega
    exact inFlight_of_strayCount_lt hopen (hbefore ▸ hsome)
  -- Right after a cycle that strayed something is unsettled, and the mark is free.
  · intro hall
    by_contra hstrayed
    obtain ⟨before, d, after, heq, hd⟩ :=
      exists_strays_of_strayCount_pos (Nat.pos_of_ne_zero hstrayed)
    obtain ⟨htally, hsome⟩ := tally_of_strays hd
    have hmark := hall (before ++ [d]) after (by simp [heq])
    rw [runAll_append] at hmark
    have hstill : 0 < (d.run (runAll before (.opened p))).tally.unsettled := by
      rw [htally]
      exact hsome
    have hfree : (d.run (runAll before (.opened p))).tally.mark = false := by rw [htally]
    cases hfree.symm.trans (hmark hstill)

end Opened

end Deed

/-- Over every run of a pipeline from its opening on, with any trackers and in any order of calls:
* the tickets that are out are at most one more than the cycles that strayed so far;
* with more tickets out than cycles that strayed the mark is set, no negotiation gives a ticket, and
  no report puts one into the queue;
* no cycle strayed exactly if the mark was set at all times at which a negotiated cycle was not
  over. -/
theorem out_le_strayCount {τ : Type} [Tracker τ] {trackers : List τ} {config : Config}
    {store : Store} {effects : Effects} {p : Pipeline τ}
    (hopen : Pipeline.open? trackers config store effects = .ok p) (deeds : List Deed) :
    let n := Deed.runAll deeds (.opened p)
    let strayed := Deed.strayCount deeds (.opened p)
    n.tally.out.length ≤ strayed + 1 ∧
      (strayed < n.tally.out.length →
        n.pipeline.inFlight = true ∧
          (∀ committed lookback, (n.pipeline.schedule committed lookback).1 = .ok none) ∧
            ∀ round, (n.pipeline.report round).2.queue = n.pipeline.queue) ∧
      (strayed = 0 ↔ ∀ before after, deeds = before ++ after →
        let m := Deed.runAll before (.opened p)
        0 < m.tally.unsettled → m.pipeline.inFlight = true) := by
  intro n strayed
  have hout : n.tally.out.length ≤ n.tally.unsettled := Nat.le_add_right _ _
  refine ⟨?_, fun hlt => ?_, Deed.strayCount_eq_zero_iff hopen deeds⟩
  · have hle : n.tally.unsettled ≤ strayed + n.tally.mark.toNat :=
      Deed.unsettled_opened_le hopen deeds
    have hmark := n.tally.mark.toNat_le
    omega
  · -- More tickets than strays means that one is under the mark, so nobody else gets one.
    have hmark := Deed.inFlight_of_strayCount_lt hopen (Nat.lt_of_lt_of_le hlt hout)
    exact ⟨hmark, Pipeline.refused_of_inFlight hmark⟩

/-- Both bulletins over an empty database. -/
def boards : Pipeline Own :=
  { trackers := [.memory {}, .durable {}], config := {}, store := .empty }

/-- A ticket is run, and once more while the next one is out. -/
def staleDeeds : List Deed :=
  [.load emptyLedger, .newBlock (emptyBlock ⟨1⟩) (.empty ⟨1⟩), .schedule ⟨1⟩ 0, .commitHeld 0,
    .newBlock (emptyBlock ⟨2⟩) (.empty ⟨2⟩), .schedule ⟨2⟩ 0,
    .commitOther ⟨⟨.zero, 1, 0⟩, ⟨1⟩, true⟩]

/-- The stale ticket takes the mark away while the next one is out, and then two are out at once, as
many as the mark and one stray cycle allow. -/
theorem out_le_strayCount_stale :
    let n := Deed.runAll staleDeeds (.opened boards)
    let m := Deed.runAll (staleDeeds ++ [.schedule ⟨2⟩ 0]) (.opened boards)
    (n.pipeline.inFlight = false ∧ n.tally.out.length = 1) ∧
      m.pipeline.inFlight = true ∧ m.tally.out.length = 2 ∧
        ∀ round, (m.pipeline.report round).2.queue = [] := by
  intro n m
  have hopen : Pipeline.open? boards.trackers {} .empty {} = .ok boards := rfl
  obtain ⟨-, hheld, -⟩ := out_le_strayCount hopen (staleDeeds ++ [.schedule ⟨2⟩ 0])
  have hlength : m.tally.out.length = 2 := rfl
  have hstrayed : Deed.strayCount (staleDeeds ++ [.schedule ⟨2⟩ 0]) (.opened boards) = 1 := rfl
  obtain ⟨hmark, -, hqueue⟩ := hheld (by rw [hstrayed]; exact Nat.le_of_eq hlength.symm)
  exact ⟨⟨rfl, rfl⟩, hmark, hlength, hqueue⟩

end CommitPipeline
