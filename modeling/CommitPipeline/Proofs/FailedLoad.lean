import CommitPipeline.Proofs.BulletinHistory
import CommitPipeline.Proofs.JointRange

/-!
# What a failed load leaves

A load asks the trackers to start at the store one after the other, and a tail that finds a row it
cannot read stops it. Nothing is undone then: the trackers in front of that tail have started
afresh, and the signals that bulletins among them held are forgotten. The tail itself and the
trackers behind it are what they were, as are the durable round and the mark of a loaded pipeline.

The module introduces:

* `Member.Reloaded` — a tracker before and after it has started at the store;
* `failed_load_drops_waiters` — a waiter that a failed load leaves behind;
* `failed_load` — what a failed load changes and what it keeps.
-/

namespace CommitPipeline

/-! ## Bulletins after a load -/

namespace Bulletin

variable {x y : Bulletin × Effects}

/-- What a use makes of a bulletin and of the signals does not depend on the journal. -/
theorem Use.run_congr (use : Use) (hbulletin : x.1 = y.1) (hsignals : x.2.signals = y.2.signals) :
    (use.run x).1 = (use.run y).1 ∧ (use.run x).2.signals = (use.run y).2.signals := by
  obtain ⟨b, fx⟩ := x
  obtain ⟨b', fx'⟩ := y
  obtain rfl : b = b' := hbulletin
  replace hsignals : fx.signals = fx'.signals := hsignals
  cases use with
  | wait r => simp only [Use.run, hsignals, and_self]
  | announce n =>
    simp only [Use.run, Bulletin.announce]
    split
    · exact ⟨rfl, hsignals⟩
    · simp only [Effects.signals_logIf, hsignals, and_self]
  | restart latest => exact ⟨rfl, by simp only [Use.run, signals_restart, hsignals]⟩

/-- What a history makes of a bulletin and of the signals does not depend on the journal. -/
theorem runAll_congr (uses : List Use) (hbulletin : x.1 = y.1)
    (hsignals : x.2.signals = y.2.signals) :
    (runAll uses x).1 = (runAll uses y).1 ∧
      (runAll uses x).2.signals = (runAll uses y).2.signals := by
  induction uses generalizing x y with
  | nil => exact ⟨hbulletin, hsignals⟩
  | cons use rest ih =>
    obtain ⟨hbulletin, hsignals⟩ := use.run_congr hbulletin hsignals
    exact ih hbulletin hsignals

/-- A bulletin that has just started releases nobody who waits already. -/
theorem orphaned_startingAt {fx : Effects} {s : SignalId} (latest : Round)
    (hmade : s < fx.signals.made) (hunfired : ¬ fx.signals.isFired s) :
    Orphaned s (startingAt latest, fx) := ⟨hmade, hunfired, nofun⟩

end Bulletin

/-! ## Trackers after a load -/

/-- A tracker has started at the store: bulletins afresh at the latest round of the ledger and at
the stored round, a tail with the rows of its window. -/
inductive Member.Reloaded (ledger : LedgerView) (s : Store) : Own → Own → Prop
  | memory (b : Bulletin) : Reloaded ledger s (.memory b) (.memory (.startingAt ledger.latest))
  | durable (b : Bulletin) : Reloaded ledger s (.durable b) (.durable (.startingAt s.round))
  | tail {u u' : Tail} (h : u.reload s s.round = .ok u') : Reloaded ledger s (.tail u) (.tail u')

/-- A tracker starts at the store, or it is a tail that cannot read its rows. -/
theorem Member.load_own_cases (ledger : LedgerView) (s : Store) (t : Own) (fx : Effects) :
    (∃ t' fx', Tracker.load ledger s s.round (t, fx) = (.ok (), t', fx') ∧
        Member.Reloaded ledger s t t' ∧ fx'.signals = fx.signals) ∨
      ∃ u stop, t = .tail u ∧ u.reload s s.round = .error stop ∧
        Tracker.load ledger s s.round (t, fx) = (.error stop, t, fx) := by
  cases t with
  | memory b => exact .inl ⟨_, _, rfl, .memory b, Bulletin.signals_restart _ b fx⟩
  | durable b => exact .inl ⟨_, _, rfl, .durable b, Bulletin.signals_restart _ b fx⟩
  | tail u =>
    cases h : u.reload s s.round with
    | error stop => exact .inr ⟨u, stop, rfl, h, by simp only [Tracker.load, Member.load, h]⟩
    | ok u' =>
      exact .inl ⟨.tail u', fx, by simp only [Tracker.load, Member.load, h], .tail h, rfl⟩
  | guest g => exact g.elim

/-- A tail that cannot read its rows found a corrupt one. -/
theorem Tail.corrupt_of_reload {u : Tail} {s : Store} {durable : Round} {e : PipelineError}
    (h : u.reload s durable = .error (.error e)) : ∃ flaw, e = .store (.corrupt flaw) := by
  obtain ⟨-, f, hread⟩ | ⟨-, -, _, _, -, hread, -⟩ | ⟨-, _, _, -, -, hread⟩ :=
    u.reload_cases s durable
  · cases hread.symm.trans h
  · cases hread.symm.trans h
  · exact ⟨_, (Stop.error.inj (Except.error.inj (hread.symm.trans h))).symm⟩

namespace Pipeline

variable {ledger : LedgerView} {p q : Pipeline Own} {e : PipelineError}

/-- The question to start at the store is stopped by a tail alone, with those in front of it started
and those behind it not asked. -/
theorem stopped_at_tail
    (h : p.ask (Tracker.load ledger p.store p.store.round) = (.error (.error e), q)) :
    ∃ before before' u after journal, p.trackers = before ++ .tail u :: after ∧
      u.reload p.store p.store.round = .error (.error e) ∧
      List.Forall₂ (Member.Reloaded ledger p.store) before before' ∧
      q = { p with
        trackers := before' ++ .tail u :: after
        effects := { p.effects with journal } } := by
  unfold ask at h
  rcases hsweep : sweep (Tracker.load ledger p.store p.store.round) p.trackers p.effects with
    ⟨result, answered, fx⟩
  rw [hsweep] at h
  obtain ⟨rfl, rfl⟩ := Prod.mk.inj h
  obtain ⟨before, t, after, before', fx₁, t', htrackers, hbefore, hstops, rfl⟩ :=
    exists_of_sweep_error hsweep
  -- Those in front have started, and the signals are left alone.
  have hanswer : ∀ (t : Own) (fx : Effects), fx.signals = p.effects.signals →
      (Tracker.load ledger p.store p.store.round (t, fx)).1 = .ok () →
      Member.Reloaded ledger p.store t (Tracker.load ledger p.store p.store.round (t, fx)).2.1 ∧
        (Tracker.load ledger p.store p.store.round (t, fx)).2.2.signals = p.effects.signals := by
    intro t fx hsignals hok
    rcases Member.load_own_cases ledger p.store t fx with
      ⟨t', fx', heq, hreloaded, hsame⟩ | ⟨u, stop, -, -, heq⟩ <;> rw [heq] at hok ⊢
    · exact ⟨hreloaded, hsame.trans hsignals⟩
    · cases hok
  have hstarted := sweep_forall₂_of_ok (R := Member.Reloaded ledger p.store)
    (I := fun fx : Effects => fx.signals = p.effects.signals) hanswer before rfl (by rw [hbefore])
  rw [hbefore] at hstarted
  obtain ⟨hreloaded, hsignals⟩ := hstarted
  rcases Member.load_own_cases ledger p.store t fx₁ with
    ⟨_, _, heq, -, -⟩ | ⟨u, stop, rfl, hreload, heq⟩
  · rw [heq] at hstops
    cases congrArg Prod.fst hstops
  · rw [heq] at hstops
    obtain ⟨hstop, rfl, rfl⟩ := Prod.mk.inj hstops |>.imp_right Prod.mk.inj
    obtain rfl := Except.error.inj hstop
    refine ⟨before, before', u, after, fx₁.journal, htrackers, hreload, hreloaded, ?_⟩
    obtain ⟨signals, journal⟩ := fx₁
    obtain rfl : signals = p.effects.signals := hsignals
    rfl

/-- A load fails before anybody is asked, or at a tail that cannot read its rows. -/
theorem failed_load_cases (h : p.load ledger = (.error (.error e), q)) :
    (q = p ∧ e = .storeAhead p.store.round ledger.latest) ∨
      ∃ before before' u after journal, p.trackers = before ++ .tail u :: after ∧
        u.reload p.store p.store.round = .error (.error e) ∧
        List.Forall₂ (Member.Reloaded ledger p.store) before before' ∧
        q = { p with
          trackers := before' ++ .tail u :: after
          effects := { p.effects with journal } } := by
  unfold load at h
  simp only at h
  split at h
  · obtain ⟨herror, rfl⟩ := Prod.mk.inj h
    exact .inl ⟨rfl, (Stop.error.inj (Except.error.inj herror)).symm⟩
  split at h
  · next stop q' hask =>
    obtain ⟨herror, rfl⟩ := Prod.mk.inj h
    obtain rfl := Except.error.inj herror
    exact .inr (stopped_at_tail hask)
  · split at h
    · cases congrArg Prod.fst h
    · cases congrArg Prod.fst h

theorem tails_append_cons (before after : List Own) (u : Tail) :
    tails (before ++ .tail u :: after) = tails before ++ u :: tails after := by
  simp [tails]

/-- A tail that has started is a tail, and no other tracker becomes one. -/
theorem length_tails_of_reloaded {s : Store} {before before' : List Own}
    (h : List.Forall₂ (Member.Reloaded ledger s) before before') :
    (tails before').length = (tails before).length := by
  induction h with
  | nil => rfl
  | cons hreloaded _ ih =>
    cases hreloaded with
    | memory b => exact ih
    | durable b => exact ih
    | tail _ => exact congrArg (· + 1) ih

/-- The bulletins that have started hold no signal. -/
theorem orphaned_of_reloaded {s : Store} {before before' : List Own} {b : Bulletin}
    {fx : Effects} {signal : SignalId}
    (h : List.Forall₂ (Member.Reloaded ledger s) before before')
    (hb : .memory b ∈ before' ∨ .durable b ∈ before') (hmade : signal < fx.signals.made)
    (hunfired : ¬ fx.signals.isFired signal) : Bulletin.Orphaned signal (b, fx) := by
  induction h with
  | nil => simp at hb
  | cons hreloaded _ ih =>
    cases hreloaded with
    -- A bulletin that was reloaded began anew and knows none of the earlier signals.
    | memory b' =>
      simp only [List.mem_cons, reduceCtorEq, false_or, Member.memory.injEq] at hb
      rcases hb with (rfl | hb) | hb
      · exact Bulletin.orphaned_startingAt _ hmade hunfired
      · exact ih (.inl hb)
      · exact ih (.inr hb)
    | durable b' =>
      simp only [List.mem_cons, reduceCtorEq, false_or, Member.durable.injEq] at hb
      rcases hb with hb | rfl | hb
      · exact ih (.inl hb)
      · exact Bulletin.orphaned_startingAt _ hmade hunfired
      · exact ih (.inr hb)
    | tail _ =>
      simp only [List.mem_cons, reduceCtorEq, false_or] at hb
      exact ih hb

/-- What a failed load changes and what it keeps. Durable round, mark of a loaded pipeline, store
and signals are what they were, and so is the tail if there is one tail only. If the store was ahead
of the ledger, nothing has changed. Otherwise a tail found a corrupt row. It and the trackers behind
it are what they were, so whatever is done with a bulletin among these fires the signals that it
would have fired without the load; the trackers in front of it have started afresh, and whatever is
done with a bulletin among those, it fires no signal that was made before and has not fired. -/
theorem failed_load (h : p.load ledger = (.error (.error e), q)) :
    (∃ trackers journal, q = { p with trackers, effects := { p.effects with journal } }) ∧
      ((tails p.trackers).length ≤ 1 → tails q.trackers = tails p.trackers) ∧
      ((q = p ∧ e = .storeAhead p.store.round ledger.latest) ∨
        ∃ before before' u after flaw,
          p.trackers = before ++ .tail u :: after ∧ q.trackers = before' ++ .tail u :: after ∧
          u.reload p.store p.store.round = .error (.error e) ∧ e = .store (.corrupt flaw) ∧
          List.Forall₂ (Member.Reloaded ledger p.store) before before' ∧
          (∀ b, .memory b ∈ after ∨ .durable b ∈ after → ∀ uses,
            (Bulletin.runAll uses (b, q.effects)).1 = (Bulletin.runAll uses (b, p.effects)).1 ∧
            (Bulletin.runAll uses (b, q.effects)).2.signals =
              (Bulletin.runAll uses (b, p.effects)).2.signals) ∧
          ∀ b, .memory b ∈ before' ∨ .durable b ∈ before' → ∀ s uses,
            s < p.effects.signals.made → ¬ p.effects.signals.isFired s →
              ¬ (Bulletin.runAll uses (b, q.effects)).2.signals.isFired s) := by
  obtain ⟨rfl, he⟩ | ⟨before, before', u, after, journal, htrackers, hreload, hreloaded, hq⟩ :=
    failed_load_cases h
  · exact ⟨⟨_, _, rfl⟩, fun _ => rfl, .inl ⟨rfl, he⟩⟩
  obtain ⟨flaw, hflaw⟩ := Tail.corrupt_of_reload hreload
  have hsignals : q.effects.signals = p.effects.signals := by rw [hq]
  have hafterwards : q.trackers = before' ++ .tail u :: after := by rw [hq]
  refine ⟨⟨_, _, hq⟩, fun hone => ?_, .inr ⟨before, before', u, after, flaw, htrackers, hafterwards,
    hreload, hflaw, hreloaded, fun b _ uses => ?_, fun b hb s uses hmade hunfired => ?_⟩⟩
  -- If there is one tail only, none stands in front of it.
  · have hlength := length_tails_of_reloaded hreloaded
    rw [htrackers, tails_append_cons, List.length_append, List.length_cons] at hone
    have hnone : tails before = [] := List.length_eq_zero_iff.mp (by omega)
    have hnone' : tails before' = [] := List.length_eq_zero_iff.mp (by rw [hlength, hnone]; rfl)
    rw [htrackers, hafterwards, tails_append_cons, tails_append_cons, hnone, hnone']
  · exact Bulletin.runAll_congr uses rfl hsignals
  · rw [← hsignals] at hmade hunfired
    exact (orphaned_of_reloaded hreloaded hb hmade hunfired).unfired_runAll uses

/-- A database with a row that no tail can read. -/
def brokenStore : Store := Store.empty.put tailTable .zero [0]

/-- A pipeline opened over it, with a bulletin in front of the tail and one behind it. -/
def brokenCrew : Pipeline Own :=
  { trackers := [.memory {}, .tail (.keeping 3), .durable {}], config := {}, store := brokenStore }

/-- The same with somebody waiting for round 12 to be applied in memory. -/
def waitingCrew : Pipeline Own :=
  brokenCrew.putBack
    [.memory { pending := RoundTable.empty.insert ⟨12⟩ 0 }, .tail (.keeping 3), .durable {}]
    { made := 1 }

/-- A ledger at round 10 that holds no block. -/
def bareLedger : LedgerView := { latest := ⟨10⟩, block := fun _ => none }

/-- The block of round 12. -/
def twelfth : Block := (Chain.blockAt ⟨12⟩ .zero 0).1

/-- A load that fails at the tail has set the bulletin in front of it to round 10 and has dropped
the one waiter. Without the load the block of round 12 would have released him; now it does not. -/
theorem failed_load_drops_waiters :
    (World.up ⟨waitingCrew, []⟩).Reachable ∧
      ∃ q flaw, waitingCrew.load bareLedger = (.error (.error (.store (.corrupt flaw))), q) ∧
        waitingCrew.trackers.head? =
          some (.memory { pending := RoundTable.empty.insert ⟨12⟩ 0, latest := .zero }) ∧
        q.trackers.head? = some (.memory { pending := .empty, latest := ⟨10⟩ }) ∧
        ¬ Handle.isReady waitingCrew.effects.signals (.on 0) ∧
        Handle.isReady (waitingCrew.newBlock twelfth (.empty ⟨12⟩)).2.effects.signals (.on 0) ∧
        ¬ Handle.isReady (q.newBlock twelfth (.empty ⟨12⟩)).2.effects.signals (.on 0) := by
  refine ⟨?_, _, _, rfl, rfl, rfl, by decide, rfl, by decide⟩
  have hfresh : ∀ t ∈ brokenCrew.trackers, t.Fresh := by simp [brokenCrew, Member.Fresh]
  have hstart := @World.Step.start Empty _ ⟨brokenStore, {}⟩ [] brokenCrew.trackers {} [] brokenCrew
    hfresh rfl
  have hwait := @Session.Step.waitMemory Empty _ ⟨brokenCrew, []⟩ []
    [.tail (.keeping 3), .durable {}] {} _ ⟨12⟩ (.on 0) _ rfl rfl
  exact ⟨brokenStore, .head hstart (.single (.go hwait))⟩

/-- The load of that pipeline fails at its tail, which stays as it is. -/
theorem failed_load_waitingCrew :
    ∃ q flaw, waitingCrew.load bareLedger = (.error (.error (.store (.corrupt flaw))), q) ∧
      (tails waitingCrew.trackers).length ≤ 1 ∧ tails q.trackers = tails waitingCrew.trackers := by
  have hone : (tails waitingCrew.trackers).length ≤ 1 := by decide
  refine ⟨_, _, rfl, hone, ?_⟩
  exact (@failed_load bareLedger waitingCrew _ _ rfl).2.1 hone

end Pipeline

end CommitPipeline
