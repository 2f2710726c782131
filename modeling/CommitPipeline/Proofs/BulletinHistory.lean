import CommitPipeline.Proofs.DurableWaiters

/-!
# The history of a bulletin

A bulletin is waited on, announces rounds and starts afresh, in any order. Signals are made when
somebody is the first to wait for a round, are shared by all who wait for it, and are forgotten by
the bulletin when they fire or when it starts afresh; handles keep them for good. So what a handle
says is read off the history since it was taken: it is ready if its round was announced then, or
once a round from it on is announced, unless the bulletin starts afresh before that.

The module introduces:

* `Bulletin.Use` — what is done with a bulletin; `Bulletin.runAll` for whole histories;
* `Bulletin.AnnouncedSince` — the part of the history that decides about a handle;
* `Bulletin.Tidy` — every round that is waited for has a signal of its own, which has not fired;
* `Bulletin.Orphaned` — a signal that nothing will ever fire;
* `Bulletin.ready_iff_announcedSince` — handles over every history.
-/

namespace CommitPipeline.Bulletin

/-- What is done with a bulletin. -/
inductive Use where
  /-- Somebody wants to wait for a round. -/
  | wait (r : Round)
  /-- A round is announced. -/
  | announce (r : Round)
  /-- The bulletin starts afresh at a round. -/
  | restart (latest : Round)

/-- What a use leaves. The handle that a wait gives is not kept here. -/
def Use.run : Use → Bulletin × Effects → Bulletin × Effects
  | wait r, (b, fx) => ((b.wait fx.signals r).2.1, { fx with signals := (b.wait fx.signals r).2.2 })
  | announce r, x => (Bulletin.announce r x).2
  | restart latest, (b, fx) => b.restart latest fx

/-- Uses one after the other. -/
def runAll (uses : List Use) (x : Bulletin × Effects) : Bulletin × Effects :=
  uses.foldl (fun x use => use.run x) x

/-- In a history that begins at `x`, a round from `r` on is announced before the bulletin starts
afresh. An announcement below the latest round is refused and does not count. -/
def AnnouncedSince (r : Round) (uses : List Use) (x : Bulletin × Effects) : Prop :=
  ∃ before n after, uses = before ++ .announce n :: after ∧ r ≤ n ∧
    (∀ latest, .restart latest ∉ before) ∧ (announce n (runAll before x)).1 = .ok ()

variable {x : Bulletin × Effects} {r : Round} {s : SignalId}

/-- A restart fires nothing. -/
theorem signals_restart (latest : Round) (b : Bulletin) (fx : Effects) :
    (b.restart latest fx).2.signals = fx.signals := Effects.signals_logIf _ _ _

theorem runAll_append (before after : List Use) (x : Bulletin × Effects) :
    runAll (before ++ after) x = runAll after (runAll before x) := List.foldl_append

theorem not_announcedSince_nil : ¬ AnnouncedSince r [] x := by
  rintro ⟨before, n, after, heq, -⟩
  simp at heq

/-- The first use is an announcement of at least the round, or, unless it is a restart, the others
have one. -/
theorem announcedSince_cons {use : Use} {uses : List Use} :
    AnnouncedSince r (use :: uses) x ↔
      (∃ n, use = .announce n ∧ r ≤ n ∧ (announce n x).1 = .ok ()) ∨
        (∀ latest, use ≠ .restart latest) ∧ AnnouncedSince r uses (use.run x) := by
  constructor
  · rintro ⟨before, n, after, heq, hle, hnone, hok⟩
    cases before with
    | nil =>
      obtain ⟨rfl, -⟩ := List.cons.inj heq
      exact .inl ⟨n, rfl, hle, hok⟩
    | cons first before =>
      obtain ⟨rfl, rfl⟩ := List.cons.inj heq
      refine .inr ⟨fun latest hfirst => hnone latest (hfirst ▸ List.mem_cons_self), ?_⟩
      exact ⟨before, n, after, rfl, hle,
        fun latest hmem => hnone latest (List.mem_cons_of_mem _ hmem), hok⟩
  · rintro (⟨n, rfl, hle, hok⟩ | ⟨hnot, before, n, after, rfl, hle, hnone, hok⟩)
    · exact ⟨[], n, uses, rfl, hle, by simp, hok⟩
    · refine ⟨use :: before, n, after, rfl, hle, fun latest hmem => ?_, hok⟩
      rcases List.mem_cons.mp hmem with heq | hmem
      · exact hnot latest heq.symm
      · exact hnone latest hmem

/-- What comes after a fresh start does not count. -/
theorem announcedSince_append_restart (uses more : List Use) (latest : Round) :
    AnnouncedSince r (uses ++ .restart latest :: more) x ↔ AnnouncedSince r uses x := by
  induction uses generalizing x with
  | nil => simp [announcedSince_cons, not_announcedSince_nil]
  | cons use rest ih => simp only [List.cons_append, announcedSince_cons, ih]

/-! ## Tidy bulletins -/

/-- The rounds that are waited for have a signal each, made for this round alone and not fired
yet. -/
structure Tidy (x : Bulletin × Effects) : Prop where
  made : ∀ q s, x.1.pending.get? q = some s → s < x.2.signals.made
  unfired : ∀ q s, x.1.pending.get? q = some s → ¬ x.2.signals.isFired s
  own : ∀ q q' s, x.1.pending.get? q = some s → x.1.pending.get? q' = some s → q = q'
  fired_lt : ∀ s, x.2.signals.isFired s → s < x.2.signals.made

theorem tidy_startingAt (latest : Round) {fx : Effects}
    (hboard : ∀ s, fx.signals.isFired s → s < fx.signals.made) :
    Tidy (startingAt latest, fx) := ⟨nofun, nofun, nofun, hboard⟩

/-- A wait that has to make a signal finds a number that was never used. -/
theorem Tidy.wait (hx : Tidy x) (r : Round) : Tidy ((Use.wait r).run x) := by
  obtain ⟨b, fx⟩ := x
  unfold Use.run
  rcases b.wait_cases fx.signals r with ⟨-, heq⟩ | ⟨s, -, heq⟩ | heq <;> simp only [heq]
  -- Known already, or shared with those who wait for the round: nothing is made.
  · exact hx
  · exact hx
  -- A pending signal is the new one or an older one, and no older one has its number.
  · have hcases : ∀ q s, (b.pending.insert r fx.signals.made).get? q = some s →
        (q = r ∧ s = fx.signals.made) ∨ (b.pending.get? q = some s ∧ s < fx.signals.made) := by
      intro q s hget
      rw [RoundTable.get?_insert] at hget
      split at hget
      · next hq => exact .inl ⟨hq, (Option.some.inj hget).symm⟩
      · exact .inr ⟨hget, hx.made q s hget⟩
    refine ⟨fun q s hget => ?_, fun q s hget hfired => ?_, fun q q' s hget hget' => ?_,
      fun s hfired => Nat.lt_succ_of_lt (hx.fired_lt s hfired)⟩
    · rcases hcases q s hget with ⟨-, rfl⟩ | ⟨-, hlt⟩
      · exact Nat.lt_succ_self _
      · exact Nat.lt_succ_of_lt hlt
    · rcases hcases q s hget with ⟨-, rfl⟩ | ⟨hold, -⟩
      · exact absurd (hx.fired_lt _ hfired) (Nat.lt_irrefl _)
      · exact hx.unfired q s hold hfired
    · rcases hcases q s hget with ⟨rfl, rfl⟩ | ⟨hold, hlt⟩ <;>
        rcases hcases q' _ hget' with ⟨rfl, heq'⟩ | ⟨hold', hlt'⟩
      · rfl
      · exact absurd hlt' (Nat.lt_irrefl _)
      · exact absurd heq' (Nat.ne_of_lt hlt)
      · exact hx.own q q' s hold hold'

/-- An announcement forgets the rounds whose signals it fires. -/
theorem Tidy.announced (hx : Tidy x) {y : Bulletin × Effects}
    (h : Announced r x.1 y.1 x.2.signals y.2.signals) : Tidy y := by
  -- An announcement forgets the rounds it passes and leaves the others.
  have hpending : ∀ q s, y.1.pending.get? q = some s →
      ¬ q ≤ r ∧ x.1.pending.get? q = some s := by
    intro q s hget
    rw [h.pending] at hget
    split at hget
    · cases hget
    · next hq => exact ⟨hq, hget⟩
  refine ⟨fun q s hget => ?_, fun q s hget hfired => ?_, fun q q' s hget hget' => ?_,
    fun s hfired => ?_⟩
  · rw [h.made]
    exact hx.made q s (hpending q s hget).2
  · obtain ⟨hq, hold⟩ := hpending q s hget
    rcases (h.fired s).mp hfired with hfired | ⟨q', hle, hold'⟩
    · exact hx.unfired q s hold hfired
    · exact hq (hx.own q q' s hold hold' ▸ hle)
  · exact hx.own q q' s (hpending q s hget).2 (hpending q' s hget').2
  · rw [h.made]
    rcases (h.fired s).mp hfired with hfired | ⟨q, -, hold⟩
    · exact hx.fired_lt s hfired
    · exact hx.made q s hold

/-- Every use leaves a bulletin tidy. -/
theorem Tidy.run (hx : Tidy x) (use : Use) : Tidy (use.run x) := by
  obtain ⟨b, fx⟩ := x
  cases use with
  | wait r => exact hx.wait r
  | announce n =>
    rcases announce_cases n b fx with ⟨-, heq⟩ | ⟨-, hannounced⟩
    · rw [Use.run, heq]
      exact hx
    · exact hx.announced hannounced
  | restart latest =>
    refine ⟨nofun, nofun, nofun, fun s hfired => ?_⟩
    rw [Use.run, signals_restart] at hfired ⊢
    exact hx.fired_lt s hfired

/-- So do uses in a row. -/
theorem Tidy.runAll (hx : Tidy x) (uses : List Use) : Tidy (runAll uses x) := by
  induction uses generalizing x with
  | nil => exact hx
  | cons use rest ih => exact ih (hx.run use)

/-! ## What becomes of a signal -/

/-- What has fired stays fired. -/
theorem isFired_run (hfired : x.2.signals.isFired s) (use : Use) :
    (use.run x).2.signals.isFired s := by
  obtain ⟨b, fx⟩ := x
  cases use with
  | wait r => exact (isFired_wait (show b.wait fx.signals r = _ from rfl) s).trans hfired
  | announce n =>
    rcases announce_cases n b fx with ⟨-, heq⟩ | ⟨-, hannounced⟩
    · rw [Use.run, heq]
      exact hfired
    · exact (hannounced.fired s).mpr (.inl hfired)
  | restart latest =>
    rw [Use.run, signals_restart]
    exact hfired

/-- A signal that has fired stays so. -/
theorem isFired_runAll (hfired : x.2.signals.isFired s) (uses : List Use) :
    (runAll uses x).2.signals.isFired s := by
  induction uses generalizing x with
  | nil => exact hfired
  | cons use rest ih => exact ih (isFired_run hfired use)

/-- A signal that was made and has not fired, and that the bulletin does not know any more. -/
structure Orphaned (s : SignalId) (x : Bulletin × Effects) : Prop where
  made : s < x.2.signals.made
  unfired : ¬ x.2.signals.isFired s
  unknown : ∀ q, x.1.pending.get? q ≠ some s

/-- A signal that the bulletin does not hold any more is left alone by all uses. -/
theorem Orphaned.run (h : Orphaned s x) (use : Use) : Orphaned s (use.run x) := by
  obtain ⟨b, fx⟩ := x
  cases use with
  | wait r =>
    unfold Use.run
    rcases b.wait_cases fx.signals r with ⟨-, heq⟩ | ⟨s', -, heq⟩ | heq <;> simp only [heq]
    · exact h
    · exact h
    -- The new signal is another one: it was not made before.
    · refine ⟨Nat.lt_succ_of_lt h.made, h.unfired, fun q hget => ?_⟩
      rw [RoundTable.get?_insert] at hget
      split at hget
      · exact absurd (Option.some.inj hget) (Nat.ne_of_gt h.made)
      · exact h.unknown q hget
  | announce n =>
    rcases announce_cases n b fx with ⟨-, heq⟩ | ⟨-, hannounced⟩
    · rw [Use.run, heq]
      exact h
    · refine ⟨?_, fun hfired => ?_, fun q hget => ?_⟩
      · rw [Use.run, hannounced.made]
        exact h.made
      · rcases (hannounced.fired s).mp hfired with hfired | ⟨q, -, hget⟩
        · exact h.unfired hfired
        · exact h.unknown q hget
      · rw [Use.run, hannounced.pending] at hget
        split at hget
        · cases hget
        · exact h.unknown q hget
  | restart latest =>
    refine ⟨?_, ?_, nofun⟩ <;> rw [Use.run, signals_restart]
    · exact h.made
    · exact h.unfired

/-- So it is by uses in a row. -/
theorem Orphaned.runAll (h : Orphaned s x) (uses : List Use) :
    Orphaned s (Bulletin.runAll uses x) := by
  induction uses generalizing x with
  | nil => exact h
  | cons use rest ih => exact ih (h.run use)

/-- Nothing fires a signal that the bulletin does not know any more. -/
theorem Orphaned.unfired_runAll (h : Orphaned s x) (uses : List Use) :
    ¬ (Bulletin.runAll uses x).2.signals.isFired s := (h.runAll uses).unfired

/-- Starting afresh orphans whatever was pending. -/
theorem Tidy.orphaned_restart (hx : Tidy x) (hpending : x.1.pending.get? r = some s)
    (latest : Round) : Orphaned s ((Use.restart latest).run x) := by
  refine ⟨?_, ?_, nofun⟩ <;> rw [Use.run, signals_restart]
  · exact hx.made r s hpending
  · exact hx.unfired r s hpending

/-- What a use does to the signal of a pending round: an announcement of the round fires it, a fresh
start orphans it, and nothing else touches it. -/
theorem Tidy.pending_run (hx : Tidy x) (hpending : x.1.pending.get? r = some s) (use : Use) :
    (∃ n, use = .announce n ∧ r ≤ n ∧ (announce n x).1 = .ok () ∧
        (use.run x).2.signals.isFired s) ∨
      ((∀ latest, use ≠ .restart latest) ∧
        (∀ n, use = .announce n → r ≤ n → (announce n x).1 ≠ .ok ()) ∧
        (use.run x).1.pending.get? r = some s) ∨
      ∃ latest, use = .restart latest ∧ Orphaned s (use.run x) := by
  cases use with
  | wait q =>
    refine .inr (.inl ⟨nofun, nofun, ?_⟩)
    exact (pending_wait (show x.1.wait x.2.signals q = _ from rfl)).1 r s hpending
  | announce n =>
    -- Either the announcement is refused, or all lower rounds are released by it.
    rcases announce_cases n x.1 x.2 with ⟨-, heq⟩ | ⟨hok, hannounced⟩
    · have hsame : (Use.announce n).run x = x := by rw [Use.run, heq]
      have hrefused : (announce n x).1 ≠ .ok () := by
        rw [heq]
        nofun
      refine .inr (.inl ⟨nofun, ?_, by rwa [hsame]⟩)
      rintro _ ⟨⟩ -
      exact hrefused
    by_cases hle : r ≤ n
    · exact .inl ⟨n, rfl, hle, hok, (hannounced.fired s).mpr (.inr ⟨r, hle, hpending⟩)⟩
    · refine .inr (.inl ⟨nofun, ?_, ?_⟩)
      · rintro _ ⟨⟩ hle'
        exact absurd hle' hle
      · rw [Use.run, hannounced.pending, if_neg hle]
        exact hpending
  | restart latest => exact .inr (.inr ⟨latest, rfl, hx.orphaned_restart hpending latest⟩)

/-- The signal of a pending round fires exactly if the round is announced in time. -/
theorem Tidy.isFired_iff_announcedSince (hx : Tidy x) (hpending : x.1.pending.get? r = some s)
    (uses : List Use) : (Bulletin.runAll uses x).2.signals.isFired s ↔ AnnouncedSince r uses x := by
  -- By induction on the history: the signal is pending until a use fires or orphans it.
  induction uses generalizing x with
  | nil => exact iff_of_false (hx.unfired r s hpending) not_announcedSince_nil
  | cons use rest ih =>
    rw [announcedSince_cons]
    show (Bulletin.runAll rest (use.run x)).2.signals.isFired s ↔ _
    obtain ⟨n, heq, hle, hok, hfired⟩ | ⟨hnot, hrefused, hstill⟩ | ⟨latest, rfl, horphaned⟩ :=
      hx.pending_run hpending use
    -- Once fired, it stays so.
    · exact iff_of_true (isFired_runAll hfired rest) (.inl ⟨n, heq, hle, hok⟩)
    · rw [ih (hx.run use) hstill]
      refine ⟨fun hsince => .inr ⟨hnot, hsince⟩, ?_⟩
      rintro (⟨n, heq, hle, hok⟩ | ⟨-, hsince⟩)
      · exact absurd hok (hrefused n heq hle)
      · exact hsince
    -- Nothing that comes later reaches a signal that the fresh start has orphaned.
    · exact iff_of_false (horphaned.unfired_runAll rest) (by simp)

/-! ## Histories -/

/-- Every use but a fresh start leaves the latest round or raises it. -/
theorem latest_le_run {use : Use} (huse : ∀ latest, use ≠ .restart latest)
    (x : Bulletin × Effects) : x.1.latest ≤ (use.run x).1.latest := by
  cases use with
  | wait r => exact Nat.le_of_eq (congrArg Round.toNat (latest_wait (b := x.1) rfl).symm)
  | announce n =>
    rcases announce_cases n x.1 x.2 with ⟨-, heq⟩ | ⟨-, hannounced⟩
    · rw [Use.run, heq]
      exact Nat.le_refl _
    · rw [Use.run, hannounced.latest]
      exact hannounced.notBelow
  | restart latest => exact absurd rfl (huse latest)

/-- Between restarts the latest round does not fall. -/
theorem latest_le_runAll {uses : List Use} (huses : ∀ latest, .restart latest ∉ uses)
    (x : Bulletin × Effects) : x.1.latest ≤ (runAll uses x).1.latest := by
  induction uses generalizing x with
  | nil => exact Nat.le_refl _
  | cons use rest ih =>
    have hfirst : x.1.latest ≤ (use.run x).1.latest :=
      latest_le_run (fun latest heq => huses latest (by simp [heq])) x
    exact Nat.le_trans hfirst (ih (fun latest hmem => huses latest (List.mem_cons_of_mem _ hmem)) _)

/-- A handle for a round that was not announced stands for the signal that its round has from then
on. -/
theorem exists_pending_wait (hlt : ¬ r ≤ x.1.latest) :
    ∃ s, (x.1.wait x.2.signals r).1 = .on s ∧
      ((Use.wait r).run x).1.pending.get? r = some s := by
  obtain ⟨s, hhandle⟩ : ∃ s, (x.1.wait x.2.signals r).1 = .on s := by
    rcases x.1.wait_cases x.2.signals r with ⟨hle, -⟩ | ⟨s, -, heq⟩ | heq
    · exact absurd hle hlt
    · exact ⟨s, congrArg Prod.fst heq⟩
    · exact ⟨_, congrArg Prod.fst heq⟩
  exact ⟨s, hhandle, (pending_wait (show x.1.wait x.2.signals r = _ from rfl)).2.1 s hhandle⟩

/-- What a handle says later on, by what was announced when it was taken and since. -/
theorem Tidy.isReady_wait_iff (hx : Tidy x) (r : Round) (uses : List Use) :
    (x.1.wait x.2.signals r).1.isReady
        (Bulletin.runAll uses ((Use.wait r).run x)).2.signals ↔
      r ≤ x.1.latest ∨ AnnouncedSince r uses ((Use.wait r).run x) := by
  by_cases hle : r ≤ x.1.latest
  · have hready : (x.1.wait x.2.signals r).1 = .ready := by
      rw [Bulletin.wait, if_pos hle]
    rw [hready]
    exact iff_of_true rfl (.inl hle)
  · obtain ⟨s, hhandle, hpending⟩ := exists_pending_wait hle
    rw [hhandle, or_iff_right hle]
    exact (hx.wait r).isFired_iff_announcedSince hpending uses

/-- Over every history of a bulletin:
* a handle is ready exactly if its round was announced when it was taken, or a round from it on was
  announced since, before the bulletin started afresh;
* a handle that is ready stays so, and one that is not when the bulletin starts afresh never is;
* the latest round does not fall but by starting afresh;
* an announcement succeeds exactly if it is not below the latest round, and a refused one changes
  nothing. -/
theorem ready_iff_announcedSince (latest : Round) {fx : Effects}
    (hboard : ∀ s, fx.signals.isFired s → s < fx.signals.made) (before after more : List Use)
    (r : Round) :
    let taken := runAll before (startingAt latest, fx)
    let handle := (taken.1.wait taken.2.signals r).1
    let now := runAll after ((Use.wait r).run taken)
    (handle.isReady now.2.signals ↔
        r ≤ taken.1.latest ∨ AnnouncedSince r after ((Use.wait r).run taken)) ∧
      (handle.isReady now.2.signals → handle.isReady (runAll more now).2.signals) ∧
      (¬ handle.isReady now.2.signals → ∀ l,
        ¬ handle.isReady (runAll (.restart l :: more) now).2.signals) ∧
      ((∀ l, .restart l ∉ more) → now.1.latest ≤ (runAll more now).1.latest) ∧
      ∀ n, ((announce n now).1 = .ok () ↔ now.1.latest ≤ n) ∧
        ((announce n now).1 ≠ .ok () → (announce n now).2 = now) := by
  intro taken handle now
  have htidy : Tidy taken := (tidy_startingAt latest hboard).runAll before
  have hexact := htidy.isReady_wait_iff r
  refine ⟨hexact after, fun hready => ?_, fun hready l => ?_, fun hmore =>
    latest_le_runAll hmore now, fun n => ?_⟩
  · -- A handle that is ready stays so: either it always was, or its signal has fired.
    cases hhandle : handle with
    | ready => rfl
    | on s =>
      rw [hhandle] at hready
      exact isFired_runAll hready more
  · -- A restart orphans the signal, so nothing that comes later makes the handle ready.
    have hlater := hexact (after ++ .restart l :: more)
    rw [announcedSince_append_restart, ← hexact after, runAll_append] at hlater
    exact fun hready' => hready (hlater.mp hready')
  · rcases announce_cases n now.1 now.2 with ⟨hlt, heq⟩ | ⟨hok, hannounced⟩
    · rw [show announce n now = _ from heq]
      exact ⟨iff_of_false nofun (Nat.not_le.mpr hlt), fun _ => rfl⟩
    · exact ⟨iff_of_true hok hannounced.notBelow, fun hrefused => absurd hok hrefused⟩

/-- A handle for round 5, taken at round 3 while somebody waits for it already: round 4 does not
release it, round 6 does, and it stays released when the bulletin starts afresh at round 0. -/
theorem ready_iff_announcedSince_of_five :
    let taken := runAll [.wait ⟨5⟩] (startingAt ⟨3⟩, ({} : Effects))
    let handle := (taken.1.wait taken.2.signals ⟨5⟩).1
    let now := runAll [.announce ⟨4⟩, .announce ⟨6⟩] ((Use.wait ⟨5⟩).run taken)
    (∀ s, ({} : SignalBoard).isFired s → s < ({} : SignalBoard).made) ∧
      handle.isReady now.2.signals ∧
      handle.isReady (runAll [.restart ⟨0⟩] now).2.signals := by
  intro taken handle now
  have hboard : ∀ s, ({} : Effects).signals.isFired s → s < ({} : Effects).signals.made := nofun
  obtain ⟨hexact, hstays, -⟩ := ready_iff_announcedSince ⟨3⟩ hboard [.wait ⟨5⟩]
    [.announce ⟨4⟩, .announce ⟨6⟩] [.restart ⟨0⟩] ⟨5⟩
  have hready : handle.isReady now.2.signals := by
    refine hexact.mpr (.inr ⟨[.announce ⟨4⟩], ⟨6⟩, [], rfl, by decide, by simp, rfl⟩)
  exact ⟨hboard, hready, hstays hready⟩

end CommitPipeline.Bulletin
