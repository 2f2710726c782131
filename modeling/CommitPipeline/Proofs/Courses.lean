import CommitPipeline.Proofs.FollowUps
import CommitPipeline.Proofs.Hooks
import CommitPipeline.Tracker.Scripted

/-!
# Courses of cycles

A cycle that is not cut short takes one of five courses, and the course says which hooks are called
on which trackers, in which order. The trackers are prepared up to the first that objects, and made
to write up to the first that fails; but what came of it all of them are told, also those that were
not asked to prepare.

So a tracker that has prepared hears first what came of that cycle, which is the same for all
trackers. Until it prepares again it may hear of more cycles, in which a tracker before it objected.

The module introduces:

* `Course`, with `Course.calls` for its hooks and `Course.outcome` for what all trackers are told;
* `Pipeline.Went` — when a cycle takes which course, and what it answers then;
* `Operation.cycles`, `Operation.allCycles` — the cycles of a run, retries included;
* `exists_courses` — the hooks of a run.
-/

namespace CommitPipeline

/-- The course of a cycle. Trackers are counted from one. -/
inductive Course where
  /-- The pipeline was not loaded. -/
  | refused
  /-- The cycle built on another durable round than the present one. -/
  | skipped
  /-- The tracker in a place objected. -/
  | objected (place : Nat)
  /-- The tracker in a place failed to write. The places before the first tracker and behind the
  last one are those of the store, which then refused to begin the transaction, or to end it. -/
  | rolledBack (place : Nat)
  /-- The cycle landed. -/
  | landed
  deriving DecidableEq, Repr

/-- A hook is called on trackers one after the other. -/
def onEach (labels : List String) (h : Hook) : List (String × Hook) :=
  labels.map fun label => (label, h)

namespace Course

/-- The hooks that are called in a course, given the labels of the trackers in their order. -/
def calls (labels : List String) : Course → List (String × Hook)
  | refused => []
  | skipped => onEach labels (.told .outOfOrder)
  | objected place => onEach (labels.take place) .prepare ++ onEach labels (.told .prepareFailed)
  | rolledBack place =>
    onEach labels .prepare ++ onEach (labels.take place) .write ++
      onEach labels (.told .writeFailed)
  | landed =>
    onEach labels .prepare ++ onEach labels .write ++ onEach labels (.told .landed) ++
      onEach labels (.told .released)

/-- What all trackers are told in the end of a course in which trackers were asked to prepare. -/
def outcome : Course → List Notice
  | refused | skipped => []
  | objected _ => [.prepareFailed]
  | rolledBack _ => [.writeFailed]
  | landed => [.landed, .released]

end Course

/-- The answer of a cycle that was not cut short. -/
def Ended : Except Stop Outcome → Prop
  | .error (.fault _) => False
  | .error (.error _) | .ok _ => True

instance : (result : Except Stop Outcome) → Decidable (Ended result)
  | .error (.fault _) => .isFalse id
  | .error (.error _) => .isTrue trivial
  | .ok _ => .isTrue trivial

/-- The roster of trackers with the store at both ends, where it may refuse to begin a transaction,
and refuse to end it. -/
def ringed (labels : List String) : List (Option String) := none :: (labels.map some ++ [none])

theorem called_ringed (h : Hook) (labels : List String) :
    called (some h) (ringed labels) = onEach labels h := by
  simp [called, onEach, ringed, List.filterMap_map, List.filterMap_eq_map']

/-- The partners up to a place are the store and the trackers up to that place. -/
theorem called_take_ringed (h : Hook) (labels : List String) (place : Nat) :
    called (some h) ((ringed labels).take (place + 1)) =
      onEach (labels.take place) h := by
  have htake : ∀ (labels : List String) (place : Nat),
      called (some h) ((labels.map some ++ [none]).take place) =
        onEach (labels.take place) h := by
    intro labels
    induction labels with
    | nil =>
      intro place
      cases place <;> simp [called, onEach]
    | cons label rest ih =>
      intro place
      cases place with
      | zero => rfl
      | succ place => exact congrArg ((label, h) :: ·) (ih place)
  exact htake labels place

theorem StopsAt.exists_getElem? {τ κ ε : Type} {ask : Act ε (τ × κ) Unit} {partners : List τ}
    {c : κ} {place : Nat} {e : ε} (h : StopsAt ask partners c place e) :
    ∃ t c', partners[place]? = some t ∧ (ask (t, c')).1 = .error e := by
  induction h with
  | here rest hstops => exact ⟨_, _, rfl, congrArg Prod.fst hstops⟩
  | later _ _ ih => exact ih

namespace Pipeline

variable {τ : Type} {p q r : Pipeline (Partner τ)} {k : Ticket} {labels : List String}
  {first second : List (String × Hook)}

/-- From `p` to `q` these hooks were called, and the partners are who they were. -/
structure Hears (p : Pipeline (Partner τ)) (noted : List (String × Hook))
    (q : Pipeline (Partner τ)) : Prop where
  roster : q.roster = p.roster
  hooks : q.hooks = p.hooks ++ noted

theorem Hears.trans (h : p.Hears first q) (h' : q.Hears second r) :
    p.Hears (first ++ second) r where
  roster := h'.roster.trans h.roster
  hooks := by rw [h'.hooks, h.hooks, List.append_assoc]

theorem Silent.hears (h : p.Silent q) : p.Hears [] q :=
  ⟨h.roster, h.hooks.trans (List.append_nil _).symm⟩

theorem Silent.trans_hears (h : p.Silent q) (h' : q.Hears second r) : p.Hears second r :=
  h.hears.trans h'

theorem Hears.trans_silent (h : p.Hears first q) (h' : q.Silent r) : p.Hears first r :=
  List.append_nil first ▸ h.trans h'.hears

variable [Tracker τ]

/-- A pipeline that is about to run the cycle of a ticket. -/
def entered (k : Ticket) (p : Pipeline (Partner τ)) : Pipeline (Partner τ) :=
  p.log (.cycleEntered k.range.base k.range.length)

/-- Which course a cycle takes, and what it answers. -/
inductive Went (labels : List String) (p : Pipeline (Partner τ)) (k : Ticket) :
    Course → Except Stop Outcome → Prop
  | refused (hloaded : p.loaded = false) : Went labels p k .refused (.error (.error .notLoaded))
  | skipped (hloaded : p.loaded = true) (hbase : k.range.base ≠ p.durable) :
      Went labels p k .skipped (.ok .outOfOrder)
  | objected {place : Nat} {e : PipelineError} (hloaded : p.loaded = true)
      (hbase : k.range.base = p.durable) (hplace : 0 < place ∧ place ≤ labels.length)
      (hstops : StopsAt Tracker.prepare p.trackers ((p.entered k).effects, k) place (.error e)) :
      Went labels p k (.objected place) (.error (.error e))
  | rolledBack {place : Nat} {e : PipelineError} {k' : Ticket} {q : Pipeline (Partner τ)}
      (hloaded : p.loaded = true) (hbase : k.range.base = p.durable)
      (hprepared : (p.entered k).prepareAll k = (.ok (), k', q))
      (hplace : place ≤ labels.length + 1)
      (hstops : StopsAt Tracker.write q.trackers (q.effects, k', q.store) place (.error e)) :
      Went labels p k (.rolledBack place) (.error (.error e))
  | landed {newBase : Round} {k' : Ticket} {q : Pipeline (Partner τ)} (hloaded : p.loaded = true)
      (hbase : k.range.base = p.durable) (hprepared : (p.entered k).prepareAll k = (.ok (), k', q))
      (hnext : k'.newBase = .ok newBase) (hwritten : (q.transaction newBase k').1 = .ok ()) :
      Went labels p k .landed (.ok (.landed newBase))

/-- A cycle, given by its ticket and the pipeline it is run on, takes a course. -/
def Takes (labels : List String) (cycle : Ticket × Pipeline (Partner τ)) (course : Course) : Prop :=
  cycle.2.Went labels cycle.1 course (cycle.2.runCycle cycle.1).1

/-! ## The phases of a cycle -/

theorem hears_tell {n : Notice} (h : p.tell n k = (.ok (), q)) :
    p.Hears (called (some (.told n)) p.roster) q := by
  have hnotes := Partner.notes_notice (τ := τ) n k
  have hsame := (hnotes.sweep p.trackers p.effects).1
  unfold tell ask at h
  rcases hsweep : sweep (Tracker.notice n k) p.trackers p.effects with ⟨result, trackers, effects⟩
  rw [hsweep] at h hsame
  obtain ⟨rfl, rfl⟩ := Prod.mk.inj h
  exact ⟨hsame, hnotes.sweep_of_ok hsweep⟩

/-- An error is told to everybody. -/
theorem hears_failWith {n : Notice} {e : PipelineError} (hended : Ended (p.failWith n e k).1) :
    (p.failWith n e k).1 = .error (.error e) ∧
      p.Hears (called (some (.told n)) p.roster) (p.failWith n e k).2.2 := by
  unfold failWith at hended ⊢
  rcases h : p.tell n k with ⟨f | _, q⟩ <;> rw [h] at hended
  · exact hended.elim
  · exact ⟨rfl, hears_tell h⟩

/-- A landing is told to everybody, and then, to everybody again, that readers are let in. -/
theorem hears_settleLanded {newBase : Round} (hended : Ended (p.settleLanded newBase k).1) :
    (p.settleLanded newBase k).1 = .ok (.landed newBase) ∧
      p.Hears (called (some (.told .landed)) p.roster ++ called (some (.told .released)) p.roster)
        (p.settleLanded newBase k).2.2 := by
  obtain ⟨p₁, htold, ⟨f, -, heq⟩ | ⟨hok, p₂, htold', ⟨f, -, heq⟩ | ⟨hok', heq⟩⟩⟩ :=
    settleLanded_cases (q := p) newBase k <;> rw [heq] at hended ⊢
  · exact hended.elim
  · exact hended.elim
  have hmoved : p.Silent { p with durable := newBase, flushed := true } := ⟨rfl, rfl⟩
  have hfirst := hmoved.trans_hears (hears_tell (htold.trans (Prod.ext hok rfl)))
  have hsecond := hears_tell (htold'.trans (Prod.ext hok' rfl))
  rw [hfirst.roster] at hsecond
  exact ⟨rfl, (hfirst.trans hsecond).trans_silent (silent_log _)⟩

/-- Everybody prepares, or somebody objects, who is not the store. -/
theorem hears_prepareAll (hroster : p.roster = ringed labels) (k : Ticket) :
    (∃ k' q, p.prepareAll k = (.ok (), k', q) ∧
        p.Hears (onEach labels .prepare) q) ∨
      ∃ stop place k' q, p.prepareAll k = (.error stop, k', q) ∧
        (0 < place ∧ place ≤ labels.length) ∧
        StopsAt Tracker.prepare p.trackers (p.effects, k) place stop ∧
        p.Hears (onEach (labels.take place) .prepare) q := by
  have hnotes := Partner.notes_prepare (τ := τ)
  have hlabels : p.trackers.map Partner.label? = ringed labels := hroster
  have hsame := (hnotes.sweep p.trackers (p.effects, k)).1
  unfold prepareAll
  rcases hsweep : sweep Tracker.prepare p.trackers (p.effects, k) with
    ⟨stop | _, trackers, effects, k'⟩ <;> rw [hsweep] at hsame
  · obtain ⟨place, hstops, hnoted⟩ := hnotes.sweep_of_error hsweep
    rw [hlabels, called_take_ringed] at hnoted
    refine .inr ⟨stop, place, k', _, rfl, ?_, hstops, hsame, hnoted⟩
    -- The store has nothing to prepare, so it is a tracker that objects.
    obtain ⟨t, c, hpartner, herror⟩ := hstops.exists_getElem?
    have hlabel : (ringed labels)[place]? = some t.label? := by
      rw [← hlabels, List.getElem?_map, hpartner]
      rfl
    cases t with
    | store verdicts => cases herror
    | tracker label inner =>
      cases place with
      | zero => cases hlabel
      | succ place =>
        refine ⟨place.succ_pos, Nat.succ_le_of_lt (Nat.lt_of_not_le fun hbehind => ?_)⟩
        rw [ringed, List.getElem?_cons_succ, List.getElem?_append_right (by simpa using hbehind)]
          at hlabel
        simp [List.getElem?_singleton, Partner.label?] at hlabel
  · have hnoted := hnotes.sweep_of_ok hsweep
    rw [hlabels, called_ringed] at hnoted
    exact .inl ⟨k', _, rfl, hsame, hnoted⟩

/-- The transaction is written by everybody, or it ends with a tracker, or with the store. -/
theorem hears_transaction (hroster : p.roster = ringed labels) (newBase : Round) (k : Ticket) :
    (∃ k' q, p.transaction newBase k = (.ok (), k', q) ∧
        p.Hears (onEach labels .write) q) ∨
      ∃ stop place k' q, p.transaction newBase k = (.error stop, k', q) ∧
        place ≤ labels.length + 1 ∧
        StopsAt Tracker.write p.trackers (p.effects, k, p.store) place stop ∧
        p.Hears (onEach (labels.take place) .write) q := by
  have hnotes := Partner.notes_write (τ := τ)
  have hlabels : p.trackers.map Partner.label? = ringed labels := hroster
  have hsame := (hnotes.sweep p.trackers (p.effects, k, p.store)).1
  unfold transaction Store.transact writeAll
  rcases hsweep : sweep Tracker.write p.trackers (p.effects, k, p.store) with
    ⟨stop | _, trackers, effects, k', working⟩ <;> rw [hsweep] at hsame
  · -- The hooks up to the partner that stopped were noted, its own included.
    obtain ⟨place, hstops, hnoted⟩ := hnotes.sweep_of_error hsweep
    rw [hlabels, called_take_ringed] at hnoted
    refine .inr ⟨stop, place, k', _, rfl, ?_, hstops, hsame, hnoted⟩
    -- The partner that stopped is one of the trackers or one of the two ends of the store.
    obtain ⟨t, c, hpartner, -⟩ := hstops.exists_getElem?
    have hlength : p.trackers.length = labels.length + 2 := by
      rw [← List.length_map Partner.label?, hlabels]
      simp [ringed]
    have hlt := (List.getElem?_eq_some_iff.mp hpartner).1
    omega
  · have hnoted := hnotes.sweep_of_ok hsweep
    rw [hlabels, called_ringed] at hnoted
    exact .inl ⟨k', _, rfl, hsame, hnoted⟩

/-- Behind the prepare phase the transaction is rolled back, or it lands. -/
theorem hears_writePhase (hroster : p.roster = ringed labels) (k : Ticket)
    (hended : Ended (p.writePhase k).1) :
    (∃ place e, (p.writePhase k).1 = .error (.error e) ∧ place ≤ labels.length + 1 ∧
        StopsAt Tracker.write p.trackers (p.effects, k, p.store) place (.error e) ∧
        p.Hears (onEach (labels.take place) .write ++ onEach labels (.told .writeFailed))
          (p.writePhase k).2.2) ∨
      ∃ newBase, (p.writePhase k).1 = .ok (.landed newBase) ∧ k.newBase = .ok newBase ∧
        (p.transaction newBase k).1 = .ok () ∧
        p.Hears (onEach labels .write ++
          (onEach labels (.told .landed) ++ onEach labels (.told .released)))
          (p.writePhase k).2.2 := by
  unfold writePhase at hended ⊢
  cases hnext : k.newBase with
  | error f =>
    -- A range that ends above the last round cuts the cycle short.
    rw [hnext] at hended
    exact hended.elim
  | ok newBase =>
    simp only [hnext] at hended ⊢
    obtain ⟨k', q, heq, hwritten⟩ | ⟨e | f, place, k', q, heq, hplace, hstops, hwritten⟩ :=
      hears_transaction hroster newBase k <;> simp only [heq] at hended ⊢
    · obtain ⟨hresult, hsettled⟩ := hears_settleLanded hended
      rw [hwritten.roster, hroster, called_ringed, called_ringed] at hsettled
      exact .inr ⟨newBase, hresult, rfl, congrArg Prod.fst heq, hwritten.trans hsettled⟩
    · obtain ⟨hresult, hfailed⟩ := hears_failWith hended
      have hlog : q.Silent (q.log (.rolledBack e)) := silent_log _
      rw [hlog.roster, hwritten.roster, hroster, called_ringed] at hfailed
      exact .inl ⟨place, e, hresult, hplace, hstops,
        (hwritten.trans_silent hlog).trans hfailed⟩
    · exact hended.elim

/-- A cycle that builds on another round is skipped, and everybody is told so. -/
theorem hears_skipPhase (hroster : p.roster = ringed labels) (k : Ticket)
    (hended : Ended (p.skipPhase k).1) :
    (p.skipPhase k).1 = .ok .outOfOrder ∧
      p.Hears (onEach labels (.told .outOfOrder)) (p.skipPhase k).2.2 := by
  unfold skipPhase at hended ⊢
  rcases h : (p.log (.outOfOrder p.durable)).tell .outOfOrder k with ⟨f | _, q⟩ <;>
    rw [h] at hended
  · exact hended.elim
  · have hlog : p.Silent (p.log (.outOfOrder p.durable)) := silent_log _
    have htold := hears_tell h
    rw [hlog.roster, hroster, called_ringed] at htold
    exact ⟨rfl, hlog.trans_hears htold⟩

/-- A cycle that is not cut short takes one of the courses, and calls the hooks of that course. -/
theorem took_runCycle (hroster : p.roster = ringed labels) (k : Ticket)
    (hended : Ended (p.runCycle k).1) :
    ∃ course, Takes labels (k, p) course ∧ p.Hears (course.calls labels) (p.runCycle k).2.2 := by
  unfold Takes
  have hentered : p.Silent (p.entered k) := silent_log _
  have hroster' : (p.entered k).roster = ringed labels := hentered.roster.trans hroster
  rw [show p.runCycle k = if !p.loaded then (.error (.error .notLoaded), k, p.entered k)
    else if k.range.base ≠ p.durable then (p.entered k).skipPhase k
    else (p.entered k).preparePhase k from rfl] at hended ⊢
  by_cases hloaded : p.loaded
  · rw [if_neg (by simp [hloaded])] at hended ⊢
    by_cases hbase : k.range.base = p.durable
    · rw [if_neg (not_not_intro hbase)] at hended ⊢
      unfold preparePhase at hended ⊢
      obtain ⟨k', q, heq, hprepared⟩ | ⟨e | f, place, k', q, heq, hplace, hstops, hprepared⟩ :=
        hears_prepareAll hroster' k <;> simp only [heq] at hended ⊢
      -- Everybody has prepared; what remains is the transaction.
      · replace hprepared := hentered.trans_hears hprepared
        obtain ⟨place, e, hresult, hplace, hstops, hcalls⟩ |
            ⟨newBase, hresult, hnext, hwritten, hcalls⟩ :=
          hears_writePhase (hprepared.roster.trans hroster) k' hended
        · rw [hresult]
          refine ⟨.rolledBack place, .rolledBack hloaded hbase heq hplace hstops, ?_⟩
          simpa [Course.calls] using hprepared.trans hcalls
        · rw [hresult]
          refine ⟨.landed, .landed hloaded hbase heq hnext hwritten, ?_⟩
          simpa [Course.calls] using hprepared.trans hcalls
      · obtain ⟨hresult, hfailed⟩ := hears_failWith hended
        have hlog : q.Silent (q.log (.prepareFailed e)) := silent_log _
        rw [hlog.roster, hprepared.roster, hroster', called_ringed] at hfailed
        rw [hresult]
        exact ⟨.objected place, .objected hloaded hbase hplace hstops,
          (hentered.trans_hears (hprepared.trans_silent hlog)).trans hfailed⟩
      · exact hended.elim
    · rw [if_pos hbase] at hended ⊢
      obtain ⟨hresult, htold⟩ := hears_skipPhase hroster' k hended
      rw [hresult]
      exact ⟨.skipped, .skipped hloaded hbase, hentered.trans_hears htold⟩
  · rw [if_pos (by simp [hloaded])]
    exact ⟨.refused, .refused (Bool.not_eq_true _ ▸ hloaded), hentered.hears⟩

theorem took_single (hroster : p.roster = ringed labels) (k : Ticket)
    (hended : Ended (p.runCycle k).1) :
    ∃ courses, List.Forall₂ (Takes labels) [(k, p)] courses ∧
      p.Hears (courses.flatMap (Course.calls labels)) (p.runCycle k).2.2 := by
  obtain ⟨course, htakes, hcalls⟩ := took_runCycle hroster k hended
  exact ⟨[course], .cons htakes .nil, by simpa using hcalls⟩

/-- The tries of a worker with one ticket are cycles, each of which takes a course. -/
theorem took_attempts (hroster : p.roster = ringed labels) (retries attempt : Nat) (k : Ticket)
    (hended : ∀ cycle ∈ attempts retries attempt k p, Ended (cycle.2.runCycle cycle.1).1) :
    ∃ courses, List.Forall₂ (Takes labels) (attempts retries attempt k p) courses ∧
      p.Hears (courses.flatMap (Course.calls labels)) (p.retryHalving retries attempt k).2.2 := by
  -- By induction on the tries that are left.
  induction retries generalizing attempt k p with
  | zero => exact took_single hroster k (hended _ List.mem_cons_self)
  | succ retries ih =>
    rcases attempts_cases retries attempt k p with ⟨heq, hlast⟩ | ⟨k', e, heq, hlater⟩
    · rw [heq] at hended ⊢
      rw [hlast]
      exact took_single hroster k (hended _ List.mem_cons_self)
    · rw [heq] at hended ⊢
      obtain ⟨hfirst, hrest⟩ := List.forall_mem_cons.mp hended
      obtain ⟨course, htakes, hcalls⟩ := took_runCycle hroster k hfirst
      replace hcalls := hcalls.trans_silent (silent_log e)
      obtain ⟨courses, htakes', hcalls'⟩ := ih (hcalls.roster.trans hroster) _ k' hrest
      refine ⟨course :: courses, .cons htakes htakes', ?_⟩
      rw [hlater]
      exact hcalls.trans hcalls'

end Pipeline

/-! ## The cycles of a run -/

namespace Operation

section Cycles

variable {τ : Type} [Tracker τ]

/-- The cycles that an operation runs, each with the pipeline it is run on. -/
def cycles : Operation → Pipeline τ → List (Ticket × Pipeline τ)
  | request (.commit k), p => [(k, p)]
  | request (.work k), p => Pipeline.attempts p.config.prepareRetries.toNat 0 k p
  | _, _ => []

/-- The cycles that are run while operations are done one after the other. -/
def allCycles : List Operation → Pipeline τ → List (Ticket × Pipeline τ)
  | [], _ => []
  | operation :: rest, p => operation.cycles p ++ allCycles rest (operation.run p)

end Cycles

variable {τ : Type} [Tracker τ] {p : Pipeline (Partner τ)} {labels : List String}

/-- What an operation calls are the hooks of its cycles. -/
theorem hears_run (hroster : p.roster = ringed labels) (operation : Operation)
    (hended : ∀ cycle ∈ operation.cycles p, Ended (cycle.2.runCycle cycle.1).1) :
    ∃ courses, List.Forall₂ (Pipeline.Takes labels) (operation.cycles p) courses ∧
      p.Hears (courses.flatMap (Course.calls labels)) (operation.run p) := by
  cases operation with
  | load ledger => exact ⟨[], .nil, (Pipeline.silent_load ledger p).hears⟩
  | newBlock block delta => exact ⟨[], .nil, (Pipeline.silent_newBlock block delta p).hears⟩
  | close => exact ⟨[], .nil, (Pipeline.silent_close p).hears⟩
  | request r =>
    cases r with
    | commit k =>
      obtain ⟨courses, htakes, hcalls⟩ :=
        Pipeline.took_single hroster k (hended _ List.mem_cons_self)
      refine ⟨courses, htakes, ?_⟩
      -- The mark that the caller gives back afterwards is no hook.
      obtain ⟨-, -, ⟨heq, -⟩ | heq⟩ := Pipeline.commit_eq k p <;> rw [run, Request.run, heq]
      · exact hcalls
      · exact hcalls.trans_silent Pipeline.silent_clearMark
    | work k =>
      obtain ⟨courses, htakes, hcalls⟩ := Pipeline.took_attempts hroster _ 0 k hended
      exact ⟨courses, htakes, hcalls.trans_silent (Pipeline.silent_log _)⟩
    | report | schedule | startWorker | takeTicket | complete | retire =>
      refine ⟨[], .nil, Pipeline.Silent.hears ?_⟩
      rw [run]
      apply Pipeline.silent_request <;> simp

/-- What a run calls are the hooks of its cycles. -/
theorem hears_runAll (hroster : p.roster = ringed labels) (operations : List Operation)
    (hended : ∀ cycle ∈ allCycles operations p, Ended (cycle.2.runCycle cycle.1).1) :
    ∃ courses, List.Forall₂ (Pipeline.Takes labels) (allCycles operations p) courses ∧
      p.Hears (courses.flatMap (Course.calls labels)) (runAll operations p) := by
  induction operations generalizing p with
  | nil => exact ⟨[], .nil, (Pipeline.Silent.refl p).hears⟩
  | cons operation rest ih =>
    obtain ⟨hfirst, hrest⟩ := List.forall_mem_append.mp hended
    obtain ⟨courses, htakes, hcalls⟩ := hears_run hroster operation hfirst
    obtain ⟨courses', htakes', hcalls'⟩ := ih (hcalls.roster.trans hroster) hrest
    refine ⟨courses ++ courses', List.rel_append htakes htakes', ?_⟩
    rw [List.flatMap_append]
    exact hcalls.trans hcalls'

end Operation

/-! ## What one tracker hears -/

/-- The hooks that were called on the tracker with a label. -/
def heardBy (label : String) (noted : List (String × Hook)) : List Hook :=
  noted.filterMap fun (other, h) => if other = label then some h else none

/-- The notices about what came of cycles that trackers were asked to prepare for. -/
def outcomes (heard : List Hook) : List Notice :=
  heard.filterMap fun
    | .told .outOfOrder | .prepare | .write => none
    | .told n => some n

section Heard

variable {label : String} {labels : List String}

theorem heardBy_append (first second : List (String × Hook)) :
    heardBy label (first ++ second) = heardBy label first ++ heardBy label second :=
  List.filterMap_append ..

theorem outcomes_append (first second : List Hook) :
    outcomes (first ++ second) = outcomes first ++ outcomes second := List.filterMap_append ..

/-- A tracker that is called among others, each of them once, hears one hook. -/
theorem heardBy_onEach (hnodup : labels.Nodup) (h : Hook) :
    heardBy label (onEach labels h) = if label ∈ labels then [h] else [] := by
  induction labels with
  | nil => rfl
  | cons other rest ih =>
    obtain ⟨hnew, hrest⟩ := List.nodup_cons.mp hnodup
    have htail := ih hrest
    by_cases hsame : other = label
    · subst hsame
      rw [if_neg hnew] at htail
      simpa [heardBy, onEach] using htail
    · simpa [heardBy, onEach, hsame, Ne.symm hsame] using htail

/-- In any course a tracker is asked to prepare at first, or not at all; in the latter case nothing
came of the cycle, or another tracker objected. -/
theorem Course.heard_cases (hnodup : labels.Nodup) (hlabel : label ∈ labels) (course : Course) :
    ∃ rest, .prepare ∉ rest ∧ outcomes rest = course.outcome ∧
      (heardBy label (course.calls labels) = .prepare :: rest ∧
          course.outcome ∈ [[.prepareFailed], [.writeFailed], [.landed, .released]] ∨
        heardBy label (course.calls labels) = rest ∧
          ∃ m, course.outcome = List.replicate m .prepareFailed) := by
  have hall : ∀ h, heardBy label (onEach labels h) = [h] :=
    fun h => (heardBy_onEach hnodup h).trans (if_pos hlabel)
  have hsome : ∀ place h, heardBy label (onEach (labels.take place) h) =
      if label ∈ labels.take place then [h] else [] :=
    fun place h => heardBy_onEach (hnodup.sublist (List.take_sublist _ _)) h
  cases course with
  | refused => exact ⟨[], by simp, rfl, .inr ⟨rfl, 0, rfl⟩⟩
  | skipped => exact ⟨[.told .outOfOrder], by simp, rfl, .inr ⟨hall _, 0, rfl⟩⟩
  | objected place =>
    refine ⟨[.told .prepareFailed], by simp, rfl, ?_⟩
    rw [calls, heardBy_append, hsome, hall]
    -- Those behind the tracker that objects are not asked, and told all the same.
    by_cases hasked : label ∈ labels.take place
    · exact .inl ⟨by rw [if_pos hasked]; rfl, by simp [outcome]⟩
    · exact .inr ⟨by rw [if_neg hasked]; rfl, 1, rfl⟩
  | rolledBack place =>
    simp only [calls, heardBy_append, hsome, hall]
    by_cases hasked : label ∈ labels.take place
    · exact ⟨[.write, .told .writeFailed], by simp, rfl,
        .inl ⟨by rw [if_pos hasked]; rfl, by simp [outcome]⟩⟩
    · exact ⟨[.told .writeFailed], by simp, rfl,
        .inl ⟨by rw [if_neg hasked]; rfl, by simp [outcome]⟩⟩
  | landed =>
    simp only [calls, heardBy_append, hall]
    exact ⟨[.write, .told .landed, .told .released], by simp, rfl, .inl ⟨rfl, by simp [outcome]⟩⟩

/-- All trackers are told the same of a cycle. -/
theorem Course.outcomes_heardBy (hnodup : labels.Nodup) (hlabel : label ∈ labels)
    (course : Course) : outcomes (heardBy label (course.calls labels)) = course.outcome := by
  obtain ⟨rest, -, houtcome, ⟨heq, -⟩ | ⟨heq, -⟩⟩ := course.heard_cases hnodup hlabel
  · rw [heq]
    exact houtcome
  · rw [heq]
    exact houtcome

/-- What is heard up to the next call to prepare goes on over hooks that are no such call. -/
theorem takeWhile_append_of_quiet {first : List Hook} (hquiet : .prepare ∉ first)
    (second : List Hook) :
    (first ++ second).takeWhile (· ≠ .prepare) = first ++ second.takeWhile (· ≠ .prepare) :=
  List.takeWhile_append_of_pos fun _ hmem => decide_eq_true fun heq => hquiet (heq ▸ hmem)

/-- Until a tracker is asked to prepare, it can only hear of cycles in which another one
objected. -/
theorem outcomes_takeWhile_heardBy (hnodup : labels.Nodup) (hlabel : label ∈ labels)
    (courses : List Course) :
    ∃ m, outcomes ((heardBy label (courses.flatMap (Course.calls labels))).takeWhile
      (· ≠ .prepare)) = List.replicate m .prepareFailed := by
  induction courses with
  | nil => exact ⟨0, rfl⟩
  | cons course courses ih =>
    rw [List.flatMap_cons, heardBy_append]
    obtain ⟨rest, hquiet, houtcome, ⟨heq, -⟩ | ⟨heq, m, hm⟩⟩ :=
      course.heard_cases hnodup hlabel <;> rw [heq]
    · exact ⟨0, rfl⟩
    · obtain ⟨m', hm'⟩ := ih
      refine ⟨m + m', ?_⟩
      rw [takeWhile_append_of_quiet hquiet, outcomes_append, houtcome, hm, hm',
        List.replicate_append_replicate]

/-- What stands in front of an element that is not in the first of two lists. -/
theorem exists_of_append_eq {α : Type} {x : α} {first second earlier later : List α}
    (hx : x ∉ first) (h : first ++ second = earlier ++ x :: later) :
    ∃ mid, earlier = first ++ mid ∧ second = mid ++ x :: later := by
  rcases List.append_eq_append_iff.mp h with ⟨mid, hearlier, hsecond⟩ | ⟨mid, hfirst, hlater⟩
  · exact ⟨mid, hearlier, hsecond⟩
  · cases mid with
    | nil => exact ⟨[], by simpa using hfirst.symm, by simpa using hlater.symm⟩
    | cons y mid =>
      obtain ⟨rfl, -⟩ := List.cons.inj hlater
      exact absurd (hfirst ▸ List.mem_append_right _ List.mem_cons_self) hx

/-- Between the hooks that a tracker heard earlier and later it is asked to prepare for one of the
cycles. It hears next what came of that cycle, and then, until it is asked again, only of cycles in
which another tracker objected. -/
def Answered (labels : List String) (label : String) (courses : List Course)
    (earlier later : List Hook) : Prop :=
  ∃ before course after m, courses = before ++ course :: after ∧
    earlier = heardBy label (before.flatMap (Course.calls labels)) ∧
    course.outcome ∈ [[.prepareFailed], [.writeFailed], [.landed, .released]] ∧
    outcomes (later.takeWhile (· ≠ .prepare)) = course.outcome ++ List.replicate m .prepareFailed

/-- A call to prepare is answered as well after one more cycle in front. -/
theorem Answered.cons {courses : List Course} {earlier later : List Hook}
    (h : Answered labels label courses earlier later) (course : Course) :
    Answered labels label (course :: courses) (heardBy label (course.calls labels) ++ earlier)
      later := by
  obtain ⟨before, course', after, m, rfl, rfl, hrest⟩ := h
  refine ⟨course :: before, course', after, m, rfl, ?_, hrest⟩
  rw [List.flatMap_cons, heardBy_append]

theorem answered_of_prepare (hnodup : labels.Nodup) (hlabel : label ∈ labels)
    {courses : List Course} {earlier later : List Hook}
    (h : heardBy label (courses.flatMap (Course.calls labels)) = earlier ++ .prepare :: later) :
    Answered labels label courses earlier later := by
  -- By induction on the courses. The call to prepare is the one that the first course starts with,
  -- or stands behind all that is heard of that course.
  induction courses generalizing earlier with
  | nil => simp [heardBy] at h
  | cons course courses ih =>
    rw [List.flatMap_cons, heardBy_append] at h
    obtain ⟨rest, hquiet, houtcome, ⟨heq, hone⟩ | ⟨heq, -⟩⟩ := course.heard_cases hnodup hlabel
    · rw [heq] at h
      cases earlier with
      | nil =>
        obtain rfl : rest ++ heardBy label (courses.flatMap (Course.calls labels)) = later :=
          (List.cons.inj h).2
        obtain ⟨m, hm⟩ := outcomes_takeWhile_heardBy hnodup hlabel courses
        refine ⟨[], course, courses, m, rfl, rfl, hone, ?_⟩
        rw [takeWhile_append_of_quiet hquiet, outcomes_append, houtcome, hm]
      | cons first earlier =>
        obtain ⟨rfl, htail⟩ := List.cons.inj h
        obtain ⟨mid, rfl, hmid⟩ := exists_of_append_eq hquiet htail
        have hanswered := (ih hmid).cons course
        rwa [heq] at hanswered
    · rw [heq] at h
      obtain ⟨mid, rfl, hmid⟩ := exists_of_append_eq hquiet h
      have hanswered := (ih hmid).cons course
      rwa [heq] at hanswered

end Heard

/-- The hooks of a run, whatever the trackers do, and whatever the store says to transactions, as
long as no cycle is cut short. Each cycle takes one of the courses, and nothing calls a hook but the
cycles. Of each cycle all trackers are told the same. A tracker that is asked to prepare hears next
what came of that cycle; more that it hears before it is asked again is of cycles in which another
tracker objected. -/
theorem exists_courses {τ : Type} [Tracker τ] {p : Pipeline (Partner τ)} {labels : List String}
    (hroster : p.roster = ringed labels) (hnodup : labels.Nodup) (operations : List Operation)
    (hended : ∀ cycle ∈ Operation.allCycles operations p, Ended (cycle.2.runCycle cycle.1).1) :
    ∃ courses : List Course,
      List.Forall₂ (Pipeline.Takes labels) (Operation.allCycles operations p) courses ∧
      (Operation.runAll operations p).hooks =
        p.hooks ++ courses.flatMap (Course.calls labels) ∧
      ∀ label ∈ labels,
        (∀ course ∈ courses, outcomes (heardBy label (course.calls labels)) = course.outcome) ∧
        ∀ earlier later,
          heardBy label (courses.flatMap (Course.calls labels)) = earlier ++ .prepare :: later →
          Answered labels label courses earlier later := by
  obtain ⟨courses, htakes, hcalls⟩ := Operation.hears_runAll hroster operations hended
  refine ⟨courses, htakes, hcalls.hooks, fun label hlabel => ⟨?_, ?_⟩⟩
  · exact fun course _ => course.outcomes_heardBy hnodup hlabel
  · exact fun earlier later heard => answered_of_prepare hnodup hlabel heard

/-- Two trackers, of which the first objects to ranges of more than one round, and a store that
refuses to end the second transaction. -/
def objecting : Pipeline (Partner (Member Scripted)) where
  trackers := [
    .store [],
    .tracker "first" (.guest ⟨"first", { maxLength := some 1 }⟩),
    .tracker "second" (.guest ⟨"second", {}⟩),
    .store [none, some (.store (.io .invalidData))]]
  config := {}
  store := .empty
  loaded := true

/-- A cycle lands, the next one is tried again with half the range and rolled back, and a last one
lands. -/
def objectingRun : List Operation := [
  .request (.commit ⟨⟨⟨0⟩, 1, 0⟩, ⟨1⟩, false⟩),
  .request (.work ⟨⟨⟨1⟩, 2, 0⟩, ⟨3⟩, false⟩),
  .request (.commit ⟨⟨⟨1⟩, 1, 0⟩, ⟨3⟩, false⟩)]

/-- The run has four cycles, and the hooks are those of their courses. -/
theorem exists_courses_objecting :
    ∃ courses : List Course, courses.length = 4 ∧
      (Operation.runAll objectingRun objecting).hooks =
        courses.flatMap (Course.calls ["first", "second"]) := by
  have hended : ∀ cycle ∈ Operation.allCycles objectingRun objecting,
      Ended (cycle.2.runCycle cycle.1).1 := by
    decide +kernel
  have hroster : objecting.roster = ringed ["first", "second"] := rfl
  obtain ⟨courses, htakes, hhooks, -⟩ :=
    exists_courses hroster (by decide) objectingRun hended
  have hlength : (Operation.allCycles objectingRun objecting).length = 4 := by decide +kernel
  exact ⟨courses, htakes.length_eq.symm.trans hlength, hhooks⟩

/-- Between two of its calls to prepare a tracker may hear of more than one outcome: here the second
tracker hears that a cycle landed, and then of the objection of the first tracker to another cycle,
for which it was not asked to prepare itself. -/
theorem outcomes_objecting :
    ¬ ∀ (p : Pipeline (Partner (Member Scripted))) (labels : List String)
        (operations : List Operation) (label : String) (earlier later : List Hook),
      p.roster = ringed labels → labels.Nodup → p.hooks = [] →
      (∀ cycle ∈ Operation.allCycles operations p, Ended (cycle.2.runCycle cycle.1).1) →
      heardBy label (Operation.runAll operations p).hooks = earlier ++ .prepare :: later →
      outcomes (later.takeWhile (· ≠ .prepare)) ∈
        [[.prepareFailed], [.writeFailed], [.landed, .released]] := by
  intro hone
  have hheard : heardBy "second" (Operation.runAll objectingRun objecting).hooks = [] ++
      .prepare :: [.write, .told .landed, .told .released, .told .prepareFailed,
        .prepare, .write, .told .writeFailed,
        .prepare, .write, .told .landed, .told .released] := by
    decide +kernel
  have houtcomes := hone objecting ["first", "second"] objectingRun "second" [] _ rfl (by decide)
    rfl (by decide +kernel) hheard
  revert houtcomes
  decide

end CommitPipeline
