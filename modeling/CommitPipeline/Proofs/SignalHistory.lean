import CommitPipeline.Scenario.Signals
import Mathlib.Data.List.Basic
import Mathlib.Data.List.Induction

/-!
# The history of a signal

A signal has names, by which it is fired and from which handles are taken; names and handles are
copied and let go, and handles are waited for by futures that are polled. So what is left of a
signal at some point depends on all that was done before: who holds a name may fire it, who holds a
handle sees it, and a future that was polled too early is to be woken. Over every history the
answers come down to one question, whether somebody fired the signal so far.

The module introduces:

* `SignalScenario.Happened` — something that a history brings about at some point;
* `SignalScenario.Notifies`, `SignalScenario.Polls` — the signal is fired, and a future answers;
* `SignalScenario.Does` — all that a step can do to a state;
* `SignalScenario.Single` — everything there stands for one signal;
* `SignalScenario.Course` — a future and its waker, from the making on;
* `SignalScenario.Unanimous` — everything that can be asked answers by whether the signal has fired;
* `SignalScenario.unanimous_runSteps` — histories of one signal.
-/

namespace CommitPipeline

namespace SignalBoard

variable {board : SignalBoard} {id : SignalId} {waker : WakerId}

/-- A signal that has fired is not fired again. -/
theorem fire_of_isFired (h : board.isFired id = true) : board.fire id = (false, board) := by
  rw [fire, if_pos h]

/-- Firing makes no wakers. -/
theorem wakers_fire (board : SignalBoard) (id : SignalId) :
    (board.fire id).2.wakers = board.wakers := by
  unfold fire
  split <;> rfl

/-- The wakers that wait for a signal are gone once it has fired. -/
theorem mem_waiting_fire :
    (id, waker) ∈ (board.fire id).2.waiting ↔
      board.isFired id = true ∧ (id, waker) ∈ board.waiting := by
  unfold fire
  by_cases h : board.isFired id = true
  · simp [h]
  · simp [h]

/-- Firing takes entries out of the queue and puts none in. -/
theorem mem_of_mem_waiting_fire {entry : SignalId × WakerId}
    (h : entry ∈ (board.fire id).2.waiting) : entry ∈ board.waiting := by
  unfold fire at h
  split at h
  · exact h
  · exact (List.mem_filter.mp h).1

/-- The first firing of a signal wakes the wakers that wait for it, and nothing else does. -/
theorem isWoken_fire :
    (board.fire id).2.isWoken waker = true ↔
      board.isWoken waker = true ∨
        ¬ board.isFired id = true ∧ (id, waker) ∈ board.waiting := by
  unfold fire isWoken
  by_cases h : board.isFired id = true
  · simp [h]
  · simp [h, or_comm]

end SignalBoard

/-- A poll fires nothing, makes and wakes no waker, and leaves none but that of the future, which
keeps its handle and its waker. -/
theorem Waiting.poll_frame (w : Waiting) (board : SignalBoard) :
    (w.poll board).2.1.handle = w.handle ∧ (w.poll board).2.1.waker = w.waker ∧
      (w.poll board).2.2.fired = board.fired ∧ (w.poll board).2.2.wakers = board.wakers ∧
      (w.poll board).2.2.woken = board.woken ∧
      ∀ entry : SignalId × WakerId, entry.2 ≠ w.waker →
        (entry ∈ (w.poll board).2.2.waiting ↔ entry ∈ board.waiting) := by
  unfold poll
  split
  · simp
  · split
    · simp
    · split
      · simp
      · refine ⟨rfl, rfl, rfl, rfl, rfl, fun entry hne => ?_⟩
        exact List.mem_cons.trans (or_iff_right fun h => hne (congrArg Prod.snd h))

namespace SignalScenario

variable {s s' : State} {step : Step} {steps : List Step} {id : SignalId}

/-- A signal that is fired a number of times is fired once. -/
theorem fireMany_succ (board : SignalBoard) (id : SignalId) (threads : Nat) :
    fireMany board id (threads + 1) = ((board.fire id).1.toNat, (board.fire id).2) := by
  have hfired : ∀ {board : SignalBoard} (n : Nat), board.isFired id = true →
      fireMany board id n = (0, board) := by
    intro board n h
    induction n with
    | zero => rfl
    | succ n ih =>
      rw [fireMany, SignalBoard.fire_of_isFired h]
      simp [ih]
  have hthen : (board.fire id).2.isFired id = true := by simp [SignalBoard.isFired_fire]
  rw [fireMany]
  simp [hfired threads hthen]

/-! ## Histories -/

/-- The state that steps leave. -/
def runSteps (s : State) (steps : List Step) : State :=
  steps.foldl (fun s step => (run step s).2) s

theorem runSteps_append (s : State) (before after : List Step) :
    runSteps s (before ++ after) = runSteps (runSteps s before) after := List.foldl_append

/-- At some point of a history that begins at `s`, a step is taken of which `p` holds. -/
def Happened (p : State → Step → Prop) (s : State) (steps : List Step) : Prop :=
  ∃ before step after, steps = before ++ step :: after ∧ p (runSteps s before) step

theorem not_happened_nil {p : State → Step → Prop} : ¬ Happened p s [] := by
  rintro ⟨before, step, after, heq, -⟩
  simp at heq

/-- Something happened in a history if it did before the last step, or the last step does it. -/
theorem happened_concat_iff {p : State → Step → Prop} :
    Happened p s (steps ++ [step]) ↔ Happened p s steps ∨ p (runSteps s steps) step := by
  constructor
  · rintro ⟨before, step', after, heq, hp⟩
    -- The step in question is the last one, or one before it.
    obtain rfl | ⟨after, last, rfl⟩ := List.eq_nil_or_concat' after
    · obtain ⟨rfl, rfl⟩ := List.append_singleton_inj.1 heq
      exact .inr hp
    · rw [← List.cons_append, ← List.append_assoc] at heq
      obtain ⟨rfl, -⟩ := List.append_singleton_inj.1 heq
      exact .inl ⟨before, step', after, rfl, hp⟩
  · rintro (⟨before, step', after, rfl, hp⟩ | hp)
    · exact ⟨before, step', after ++ [step], by simp, hp⟩
    · exact ⟨steps, step, [], rfl, hp⟩

/-- The step fires a signal, by a name that there is. -/
def Notifies (s : State) : Step → Prop
  | .fire name => s.signals.has name = true
  | .race name threads => s.signals.has name = true ∧ 0 < threads
  | _ => False

/-- The step polls a future, and the answer is the verdict. -/
def Polls (future : String) (verdict : Verdict) (s : State) (step : Step) : Prop :=
  step = .watch (.poll future) ∧ (run step s).1 = .verdict verdict

/-- The step brings in a signal, or a handle that stands for none. -/
def Step.bringsIn : Step → Bool
  | .make _ | .readyHandle _ => true
  | _ => false

/-! ## What a step does -/

/-- All that a step can do, unless it brings in a signal. -/
inductive Does (s : State) (step : Step) : State → Prop
  | fires {name : String} {id : SignalId} (hname : s.signals.get? name = some id)
      (hcall : Notifies s step) :
      Does s step { s with board := (s.board.fire id).2 }
  | awaits {name future : String} {handle : Handle} (hstep : step = .watch (.await name future))
      (hhandle : s.watches.handles.get? name = some handle) :
      Does s step { s with
        board := s.board.makeWaker.2
        watches.futures := s.watches.futures.keep future ⟨handle, s.board.wakers, false⟩ }
  | polls {future : String} {w : Waiting} (hstep : step = .watch (.poll future))
      (hfuture : s.watches.futures.get? future = some w) :
      Does s step { s with
        board := (w.poll s.board).2.2
        watches.futures := s.watches.futures.keep future (w.poll s.board).2.1 }
  /-- Names and handles come and go, and stand for what others stood for before. -/
  | passes {signals : Named SignalId} {handles : Named Handle} (hcall : ¬ Notifies s step)
      (hpoll : ∀ future, step = .watch (.poll future) → s.watches.futures.get? future = none)
      (hsignals : ∀ entry ∈ signals, entry.2 ∈ s.signals.map Prod.snd)
      (hhandles : ∀ entry ∈ handles, entry.2 ∈ s.watches.handles.map Prod.snd ∨
        entry.2 ∈ (s.signals.map Prod.snd).map .on) :
      Does s step { s with signals, watches.handles := handles }

/-- A step that leaves the state as it is. -/
theorem Does.nothing (hcall : ¬ Notifies s step)
    (hpoll : ∀ future, step = .watch (.poll future) → s.watches.futures.get? future = none) :
    Does s step s :=
  .passes hcall hpoll (fun _ => List.mem_map_of_mem) fun _ h => .inl (List.mem_map_of_mem h)

/-- Steps on futures and wakers do one of these things. -/
theorem does_run_watch (step : WatchStep) (s : State) :
    Does s (.watch step) (run (.watch step) s).2 := by
  cases step with
  | isReady name =>
    rw [run, Watches.run]
    cases s.watches.handles.get? name <;> exact .nothing nofun nofun
  | waitBriefly name =>
    rw [run, Watches.run]
    cases s.watches.handles.get? name <;> exact .nothing nofun nofun
  | copy name copy =>
    rw [run, Watches.run]
    cases hhandle : s.watches.handles.get? name with
    | none => exact .nothing nofun nofun
    | some handle =>
      refine .passes nofun nofun (fun _ => List.mem_map_of_mem) fun entry hentry => .inl ?_
      obtain rfl | hold := Named.mem_keep hentry
      · exact List.mem_map.2 ⟨_, Named.mem_of_get? hhandle, rfl⟩
      · exact List.mem_map_of_mem hold
  | drop name =>
    refine .passes nofun nofun (fun _ => List.mem_map_of_mem) fun entry hentry => .inl ?_
    exact List.mem_map_of_mem (List.mem_filter.1 hentry).1
  | await name future =>
    rw [run, Watches.run]
    cases hhandle : s.watches.handles.get? name with
    | none => exact .nothing nofun nofun
    | some handle => exact .awaits rfl hhandle
  | poll future =>
    rw [run, Watches.run]
    cases hfuture : s.watches.futures.get? future with
    | none =>
      refine .nothing nofun fun future' heq => ?_
      cases heq
      exact hfuture
    | some w => exact .polls rfl hfuture
  | woken future =>
    rw [run, Watches.run]
    cases s.watches.futures.get? future <;> exact .nothing nofun nofun

/-- So do all steps that bring in no signal from elsewhere. -/
theorem does_run (hstep : step.bringsIn = false) (s : State) : Does s step (run step s).2 := by
  cases step with
  | make name => cases hstep
  | readyHandle name => cases hstep
  | fire name =>
    rw [run]
    cases hname : s.signals.get? name with
    | none => exact .nothing (Named.not_has hname) nofun
    | some id => exact .fires hname (Named.has_eq_true_iff.2 ⟨id, hname⟩)
  | isFired name =>
    rw [run]
    cases s.signals.get? name <;> exact .nothing nofun nofun
  | handle name handle =>
    rw [run]
    cases hname : s.signals.get? name with
    | none => exact .nothing nofun nofun
    | some id =>
      -- The new handle is one of the signal under this name, all others were there before.
      refine .passes nofun nofun (fun _ => List.mem_map_of_mem) fun entry hentry => ?_
      obtain rfl | hold := Named.mem_keep hentry
      · exact .inr (List.mem_map_of_mem (List.mem_map_of_mem (Named.mem_of_get? hname)))
      · exact .inl (List.mem_map_of_mem hold)
  | copy name copy =>
    rw [run]
    cases hname : s.signals.get? name with
    | none => exact .nothing nofun nofun
    | some id =>
      refine .passes nofun nofun (fun entry hentry => ?_) fun _ h => .inl (List.mem_map_of_mem h)
      obtain rfl | hold := Named.mem_keep hentry
      · exact List.mem_map.2 ⟨_, Named.mem_of_get? hname, rfl⟩
      · exact List.mem_map_of_mem hold
  | drop name =>
    refine .passes nofun nofun (fun entry hentry => ?_) fun _ h => .inl (List.mem_map_of_mem h)
    exact List.mem_map_of_mem (List.mem_filter.1 hentry).1
  | race name threads =>
    rw [run]
    cases hname : s.signals.get? name with
    | none => exact .nothing (fun hcall => Named.not_has hname hcall.1) nofun
    | some id =>
      -- Of several callers at once the first one fires, and the others find it fired.
      cases threads with
      | zero => exact .nothing (fun hcall => absurd hcall.2 (Nat.lt_irrefl 0)) nofun
      | succ threads =>
        simp only [fireMany_succ]
        exact .fires hname ⟨Named.has_eq_true_iff.2 ⟨id, hname⟩, Nat.succ_pos _⟩
  | watch step => exact does_run_watch step s

/-! ## One signal -/

/-- The future waits for the signal, has a waker that was made, and has not finished unless the
signal has fired. -/
structure WaitsFor (id : SignalId) (board : SignalBoard) (w : Waiting) : Prop where
  handle : w.handle = .on id
  finished : w.finished = true → board.isFired id = true
  waker : w.waker < board.wakers

/-- A future answers that it has answered before, or that the signal has fired, or it leaves its
waker. -/
theorem WaitsFor.poll_cases {board : SignalBoard} {w : Waiting} (h : WaitsFor id board w) :
    (w.finished = true ∧ board.isFired id = true ∧ w.poll board = (.done, w, board)) ∨
      (w.finished = false ∧ board.isFired id = true ∧
        w.poll board = (.ready, { w with finished := true }, board)) ∨
      (w.finished = false ∧ board.isFired id = false ∧
        w.poll board = (.pending, w, board.leaveWaker id w.waker)) := by
  rw [Waiting.poll, h.handle]
  cases hfinished : w.finished with
  | true => exact .inl ⟨rfl, h.finished hfinished, rfl⟩
  | false =>
    cases hfired : board.isFired id with
    | true => simp [hfired]
    | false => simp [hfired]

/-- A future that has finished has seen the signal fired. -/
theorem WaitsFor.poll {board : SignalBoard} {w : Waiting} (h : WaitsFor id board w) :
    WaitsFor id (w.poll board).2.2 (w.poll board).2.1 := by
  obtain ⟨hhandle, hwaker, hfired, hwakers, -⟩ := w.poll_frame board
  refine ⟨hhandle.trans h.handle, fun hw => ?_, ?_⟩
  · obtain ⟨-, hseen, -⟩ | ⟨-, hseen, -⟩ | ⟨hnot, -, heq⟩ := h.poll_cases
    · rwa [SignalBoard.isFired, hfired]
    · rwa [SignalBoard.isFired, hfired]
    · rw [heq, hnot] at hw
      cases hw
  · rw [hwaker, hwakers]
    exact h.waker

/-- Everything there stands for one signal, and the wakers that are in use were made. -/
structure Single (id : SignalId) (s : State) : Prop where
  name : ∀ entry ∈ s.signals, entry.2 = id
  handle : ∀ entry ∈ s.watches.handles, entry.2 = .on id
  future : ∀ f w, s.watches.futures.get? f = some w → WaitsFor id s.board w
  waiting : ∀ entry ∈ s.board.waiting, entry.2 < s.board.wakers
  woken : ∀ waker, s.board.isWoken waker = true → waker < s.board.wakers

namespace Single

/-- On another board everything still stands for the signal, if this has not become unfired and the
wakers that came into use were made. -/
theorem withBoard (hs : Single id s) {board : SignalBoard}
    (hfired : s.board.isFired id = true → board.isFired id = true)
    (hwakers : s.board.wakers ≤ board.wakers)
    (hwaiting : ∀ entry ∈ board.waiting, entry ∈ s.board.waiting ∨ entry.2 < board.wakers)
    (hwoken : ∀ waker, board.isWoken waker = true →
      s.board.isWoken waker = true ∨ waker < board.wakers) :
    Single id { s with board } where
  name := hs.name
  handle := hs.handle
  future := fun f w hget =>
    have h := hs.future f w hget
    ⟨h.handle, fun hw => hfired (h.finished hw), Nat.lt_of_lt_of_le h.waker hwakers⟩
  waiting := fun entry hentry =>
    (hwaiting entry hentry).elim (fun h => Nat.lt_of_lt_of_le (hs.waiting entry h) hwakers)
      fun h => h
  woken := fun waker hwaker =>
    (hwoken waker hwaker).elim (fun h => Nat.lt_of_lt_of_le (hs.woken waker h) hwakers) fun h => h

/-- Firing the signal leaves it the only one. -/
theorem fire (hs : Single id s) : Single id { s with board := (s.board.fire id).2 } := by
  refine hs.withBoard (fun h => by simp [SignalBoard.isFired_fire])
    (Nat.le_of_eq (SignalBoard.wakers_fire _ _).symm)
    (fun entry hentry => .inl (SignalBoard.mem_of_mem_waiting_fire hentry)) fun waker hwoken => ?_
  rw [SignalBoard.wakers_fire]
  exact (SignalBoard.isWoken_fire.1 hwoken).imp_right fun h => hs.waiting _ h.2

/-- A new waker waits for nothing yet. -/
theorem makeWaker (hs : Single id s) : Single id { s with board := s.board.makeWaker.2 } :=
  hs.withBoard (fun h => h) (Nat.le_succ _) (fun _ => .inl) fun _ => .inl

/-- A poll enters or leaves the queue of this signal only. -/
theorem poll (hs : Single id s) {future : String} {w : Waiting}
    (hfuture : s.watches.futures.get? future = some w) :
    Single id { s with board := (w.poll s.board).2.2 } := by
  have hw := hs.future future w hfuture
  obtain ⟨-, -, hfired, hwakers, hwoken, hwaiting⟩ := w.poll_frame s.board
  refine hs.withBoard (fun h => ?_) (Nat.le_of_eq hwakers.symm) (fun entry hentry => ?_)
    fun waker h => .inl ?_
  · rwa [SignalBoard.isFired, hfired]
  · by_cases hown : entry.2 = w.waker
    · rw [hown, hwakers]
      exact .inr hw.waker
    · exact .inl ((hwaiting entry hown).1 hentry)
  · rwa [SignalBoard.isWoken, hwoken] at h

/-- A future of this signal may be kept under any name. -/
theorem keepFuture (hs : Single id s) {w : Waiting} (h : WaitsFor id s.board w) (f : String) :
    Single id { s with watches.futures := s.watches.futures.keep f w } where
  name := hs.name
  handle := hs.handle
  future := fun f' w' hget => by
    rw [Named.get?_keep] at hget
    split at hget
    · exact Option.some.inj hget ▸ h
    · exact hs.future f' w' hget
  waiting := hs.waiting
  woken := hs.woken

/-- The signal has fired from the first step on that fires it. -/
theorem isFired_iff (hs : Single id s) (h : Does s step s') :
    s'.board.isFired id = true ↔ s.board.isFired id = true ∨ Notifies s step := by
  cases h with
  | fires hname hcall =>
    obtain rfl := hs.name _ (Named.mem_of_get? hname)
    exact iff_of_true (by simp [SignalBoard.isFired_fire]) (.inr hcall)
  | awaits hstep =>
    subst hstep
    exact (or_iff_left nofun).symm
  | polls hstep hfuture =>
    subst hstep
    rw [or_iff_left nofun]
    rw [SignalBoard.isFired, (Waiting.poll_frame _ _).2.2.1]
    rfl
  | passes hcall => exact (or_iff_left hcall).symm

/-- Whatever a step does, there is one signal still. -/
theorem of_does (hs : Single id s) (h : Does s step s') : Single id s' := by
  cases h with
  | fires hname =>
    obtain rfl := hs.name _ (Named.mem_of_get? hname)
    exact hs.fire
  | @awaits _ future handle _ hhandle =>
    have hw : WaitsFor id s.board.makeWaker.2 ⟨handle, s.board.wakers, false⟩ :=
      ⟨hs.handle _ (Named.mem_of_get? hhandle), nofun, Nat.lt_succ_self _⟩
    exact hs.makeWaker.keepFuture hw future
  | @polls future w _ hfuture =>
    exact (hs.poll hfuture).keepFuture (hs.future future w hfuture).poll future
  | passes hcall hpoll hsignals hhandles =>
    refine ⟨fun entry hentry => ?_, fun entry hentry => ?_, hs.future, hs.waiting, hs.woken⟩
    · obtain ⟨kept, hkept, heq⟩ := List.mem_map.1 (hsignals entry hentry)
      exact heq ▸ hs.name kept hkept
    · obtain hold | hnew := hhandles entry hentry
      · obtain ⟨kept, hkept, heq⟩ := List.mem_map.1 hold
        exact heq ▸ hs.handle kept hkept
      · obtain ⟨other, hother, heq⟩ := List.mem_map.1 hnew
        obtain ⟨kept, hkept, rfl⟩ := List.mem_map.1 hother
        rw [← heq, hs.name kept hkept]

/-- What holds of one step holds of a history, and the signal has fired if somebody fired it. -/
theorem of_steps (hs : Single id s) (hsteps : ∀ step ∈ steps, step.bringsIn = false) :
    Single id (runSteps s steps) ∧
      ((runSteps s steps).board.isFired id = true ↔
        s.board.isFired id = true ∨ Happened Notifies s steps) := by
  -- By induction on the history from its end, since what happened goes by what was there before.
  induction steps using List.reverseRecOn with
  | nil => exact ⟨hs, (or_iff_left not_happened_nil).symm⟩
  | append_singleton steps step ih =>
    obtain ⟨hbefore, hfired⟩ := ih fun step h => hsteps step (List.mem_append_left _ h)
    have hdoes := does_run (hsteps step (by simp)) (runSteps s steps)
    rw [runSteps_append, happened_concat_iff, ← or_assoc, ← hfired]
    exact ⟨hbefore.of_does hdoes, hbefore.isFired_iff hdoes⟩

end Single

/-! ## One future -/

/-- A poll answers with the verdict of the future it polls. -/
theorem answer_poll {future : String} {w : Waiting} (h : s.watches.futures.get? future = some w) :
    (run (.watch (.poll future)) s).1 = .verdict (w.poll s.board).1.verdict := by
  rw [run, Watches.run, h]

theorem polls_iff {future : String} {w : Waiting} {verdict : Verdict}
    (h : s.watches.futures.get? future = some w) :
    Polls future verdict s step ↔
      step = .watch (.poll future) ∧ (w.poll s.board).1.verdict = verdict := by
  refine and_congr_right fun hstep => ?_
  rw [hstep, answer_poll h, Answer.verdict.injEq]

/-- A future that waits for the signal: whether it has finished, and what has become of its waker,
which nobody else has. It is on the board while the future has been polled in vain and the signal
has not fired, and woken when it has. -/
structure Course (id : SignalId) (future : String) (waker : WakerId) (finished pended : Prop)
    (s : State) : Prop where
  kept : ∃ w, s.watches.futures.get? future = some w ∧ w.waker = waker ∧
    (w.finished = true ↔ finished)
  own : ∀ f w, s.watches.futures.get? f = some w → w.waker = waker → f = future
  waiting : (id, waker) ∈ s.board.waiting ↔ ¬ s.board.isFired id = true ∧ pended
  woken : s.board.isWoken waker = true ↔ s.board.isFired id = true ∧ pended

namespace Course

variable {future : String} {waker : WakerId} {finished pended : Prop}

/-- A future that was just made has neither finished nor left its waker. -/
theorem of_await (hs : Single id s) {name : String} {handle : Handle}
    (hhandle : s.watches.handles.get? name = some handle) :
    Course id future s.board.wakers False False (run (.watch (.await name future)) s).2 := by
  have hrun : (run (.watch (.await name future)) s).2 = { s with
      board := s.board.makeWaker.2
      watches.futures := s.watches.futures.keep future ⟨handle, s.board.wakers, false⟩ } := by
    rw [run, Watches.run, hhandle]
    rfl
  rw [hrun]
  -- The number of the new waker was in use nowhere: all that are in use are below it.
  refine ⟨⟨⟨handle, s.board.wakers, false⟩, ?_, rfl, by simp⟩, fun f w hget hw => ?_, ?_, ?_⟩
  · exact Named.get?_keep_self _ _ _
  · rw [Named.get?_keep] at hget
    split at hget
    · assumption
    · exact absurd hw (Nat.ne_of_lt (hs.future f w hget).waker)
  · rw [and_false, iff_false]
    exact fun h => absurd (hs.waiting _ h) (Nat.lt_irrefl _)
  · rw [and_false, iff_false]
    exact fun h => absurd (hs.woken _ h) (Nat.lt_irrefl _)

/-- A step that does not poll the future. -/
theorem unpolled (hnot : step ≠ .watch (.poll future))
    (h : Course id future waker finished pended s') :
    Course id future waker (finished ∨ Polls future .ready s step)
      (pended ∨ Polls future .pending s step) s' := by
  have hpolls : ∀ verdict, ¬ Polls future verdict s step := fun _ hpolls => hnot hpolls.1
  rwa [or_iff_left (hpolls _), or_iff_left (hpolls _)]

/-- The waker is still nobody else's once another future is kept that does not have it. -/
theorem own_keep (hown : ∀ f w, s.watches.futures.get? f = some w → w.waker = waker → f = future)
    {future' : String} {w' : Waiting} (h : w'.waker = waker → future' = future) :
    ∀ f w, (s.watches.futures.keep future' w').get? f = some w → w.waker = waker → f = future := by
  intro f w hget hw
  rw [Named.get?_keep] at hget
  split at hget
  · next hf => exact hf.trans (h (Option.some.inj hget ▸ hw))
  · exact hown f w hget hw

/-- The future is polled: it finishes if the signal has fired, and else leaves its waker. -/
theorem of_poll (hc : Course id future waker finished pended s) (hs : Single id s) {w : Waiting}
    (hget : s.watches.futures.get? future = some w) :
    Course id future waker (finished ∨ Polls future .ready s (.watch (.poll future)))
      (pended ∨ Polls future .pending s (.watch (.poll future)))
      { s with
        board := (w.poll s.board).2.2
        watches.futures := s.watches.futures.keep future (w.poll s.board).2.1 } := by
  rw [polls_iff hget, polls_iff hget]
  obtain ⟨⟨w', hget', hwaker, hfinished⟩, hown, hwaiting, hwoken⟩ := hc
  obtain rfl : w' = w := Option.some.inj (hget'.symm.trans hget)
  have hkept := Named.get?_keep_self s.watches.futures future
  obtain ⟨-, -, heq⟩ | ⟨-, -, heq⟩ | ⟨-, hfired, heq⟩ := (hs.future future w' hget).poll_cases
  · rw [heq]
    simp only [Poll.verdict, reduceCtorEq, and_false, or_false]
    exact ⟨⟨w', hkept w', hwaker, hfinished⟩, own_keep hown fun _ => rfl, hwaiting, hwoken⟩
  · rw [heq]
    simp only [Poll.verdict, reduceCtorEq, and_true, and_false, or_true, or_false]
    exact ⟨⟨_, hkept _, hwaker, by simp⟩, own_keep hown fun _ => rfl, hwaiting, hwoken⟩
  · rw [heq]
    simp only [Poll.verdict, reduceCtorEq, and_true, and_false, or_true, or_false]
    have hunfired : ¬ s.board.isFired id = true := by simp [hfired]
    -- The waker is on the board now, and cannot have been woken since nobody has fired the signal.
    refine ⟨⟨w', hkept w', hwaker, hfinished⟩, own_keep hown fun _ => rfl, ?_, ?_⟩
    · exact iff_of_true (List.mem_cons.2 (.inl (by rw [hwaker]))) ⟨hunfired, trivial⟩
    · exact iff_of_false (fun h => hunfired (hwoken.1 h).1) fun h => hunfired h.1

/-- Another future is polled, which leaves another waker if any. -/
theorem of_poll_other (hc : Course id future waker finished pended s) {other : String}
    {w : Waiting} (hne : other ≠ future) (hget : s.watches.futures.get? other = some w) :
    Course id future waker finished pended
      { s with
        board := (w.poll s.board).2.2
        watches.futures := s.watches.futures.keep other (w.poll s.board).2.1 } := by
  obtain ⟨-, hsame, hfired, -, hwoken, hwaiting⟩ := w.poll_frame s.board
  have hwaker : w.waker ≠ waker := fun h => hne (hc.own other w hget h)
  obtain ⟨w', hget', hkeeps⟩ := hc.kept
  refine ⟨⟨w', (Named.get?_keep_of_ne _ hne.symm _).trans hget', hkeeps⟩,
    own_keep hc.own fun h => absurd (hsame.symm.trans h) hwaker, ?_, ?_⟩
  · rw [hwaiting (id, waker) hwaker.symm, SignalBoard.isFired, hfired]
    exact hc.waiting
  · rw [SignalBoard.isWoken, hwoken, SignalBoard.isFired, hfired]
    exact hc.woken

/-- What a step does to the course of a future, unless it makes another one under its name. -/
theorem of_does (hc : Course id future waker finished pended s) (hs : Single id s)
    (hstep : ∀ name, step ≠ .watch (.await name future)) (h : Does s step s') :
    Course id future waker (finished ∨ Polls future .ready s step)
      (pended ∨ Polls future .pending s step) s' := by
  obtain ⟨w, hget, hwaker, hfinished⟩ := hc.kept
  cases h with
  | @fires name other hname hcall =>
    obtain rfl : other = id := hs.name _ (Named.mem_of_get? hname)
    have hfired : (s.board.fire other).2.isFired other = true := by
      simp [SignalBoard.isFired_fire]
    -- If this is the first call, a waker that waits becomes one that was woken.
    refine unpolled (by rintro rfl; exact hcall) ⟨hc.kept, hc.own, ?_, ?_⟩
    · rw [SignalBoard.mem_waiting_fire, hc.waiting]
      tauto
    · rw [SignalBoard.isWoken_fire, hc.waiting, hc.woken]
      tauto
  | @awaits name other handle heq hhandle =>
    subst heq
    have hne : future ≠ other := fun h => hstep name (h ▸ rfl)
    refine unpolled (by simp) ⟨⟨w, ?_, hwaker, hfinished⟩, own_keep hc.own fun h => ?_, hc.waiting,
      hc.woken⟩
    · exact (Named.get?_keep_of_ne _ hne _).trans hget
    · exact absurd (hwaker.trans h.symm) (Nat.ne_of_lt (hs.future future w hget).waker)
  | @polls other w' heq hget' =>
    subst heq
    by_cases hother : other = future
    · subst hother
      exact hc.of_poll hs hget'
    · exact unpolled (by simp [hother]) (hc.of_poll_other hother hget')
  | passes hcall hpoll =>
    refine unpolled (fun heq => ?_) ⟨hc.kept, hc.own, hc.waiting, hc.woken⟩
    rw [hpoll future heq] at hget
    cases hget

/-- The course of a future over a history in which no other one is made under its name. -/
theorem of_steps (hc : Course id future waker finished pended s) (hs : Single id s)
    (hsteps : ∀ step ∈ steps, step.bringsIn = false)
    (hnone : ∀ name, .watch (.await name future) ∉ steps) :
    Course id future waker (finished ∨ Happened (Polls future .ready) s steps)
      (pended ∨ Happened (Polls future .pending) s steps) (runSteps s steps) := by
  induction steps using List.reverseRecOn with
  | nil =>
    rw [or_iff_left not_happened_nil, or_iff_left not_happened_nil]
    exact hc
  | append_singleton steps step ih =>
    have hbefore : ∀ step ∈ steps, step.bringsIn = false :=
      fun step h => hsteps step (List.mem_append_left _ h)
    have hlast : ∀ name, step ≠ .watch (.await name future) :=
      fun name h => hnone name (h ▸ by simp)
    rw [runSteps_append, happened_concat_iff, happened_concat_iff, ← or_assoc, ← or_assoc]
    exact (ih hbefore fun name h => hnone name (List.mem_append_left _ h)).of_does
      (hs.of_steps hbefore).1 hlast (does_run (hsteps step (by simp)) _)

/-- The course of a future in a history, from the making on. -/
theorem of_await_in (hs : Single id s) {before after : List Step} {name : String}
    (hsteps : ∀ step ∈ before ++ .watch (.await name future) :: after, step.bringsIn = false)
    (hhas : (runSteps s before).watches.handles.has name = true)
    (hnone : ∀ other, .watch (.await other future) ∉ after) :
    let made := runSteps s (before ++ [.watch (.await name future)])
    Course id future (runSteps s before).board.wakers
      (Happened (Polls future .ready) made after) (Happened (Polls future .pending) made after)
      (runSteps s (before ++ .watch (.await name future) :: after)) := by
  intro made
  obtain ⟨hbefore, hafter⟩ := List.forall_mem_append.1 hsteps
  obtain ⟨hawait, hafter⟩ := List.forall_mem_cons.1 hafter
  obtain ⟨handle, hhandle⟩ := Named.has_eq_true_iff.1 hhas
  -- The course of the future begins with the await, and what follows is induction.
  have hs : Single id (runSteps s before) := (hs.of_steps hbefore).1
  have hmade : made = (run (.watch (.await name future)) (runSteps s before)).2 :=
    runSteps_append _ _ _
  have hfirst : Course id future (runSteps s before).board.wakers False False made :=
    hmade ▸ of_await hs hhandle
  have hsingle : Single id made := hmade ▸ hs.of_does (does_run hawait _)
  have hcourse := hfirst.of_steps hsingle hafter hnone
  rw [false_or, false_or, ← runSteps_append] at hcourse
  rw [List.append_cons]
  exact hcourse

/-- What the future answers, and what is said of its waker. -/
theorem answers (hc : Course id future waker finished pended s) (hs : Single id s) :
    ∃ ended woken : Bool, (ended = true ↔ finished) ∧
      (woken = true ↔ s.board.isFired id = true ∧ pended) ∧
      (run (.watch (.poll future)) s).1 =
        .verdict (if s.board.isFired id then (if ended then .done else .ready) else .pending) ∧
      (run (.watch (.woken future)) s).1 = .flag woken := by
  obtain ⟨w, hget, hwaker, hfinished⟩ := hc.kept
  refine ⟨w.finished, s.board.isWoken waker, hfinished, hc.woken, ?_, ?_⟩
  · rw [answer_poll hget]
    obtain ⟨hended, hfired, heq⟩ | ⟨hended, hfired, heq⟩ | ⟨hended, hfired, heq⟩ :=
      (hs.future future w hget).poll_cases <;> simp [heq, hended, hfired, Poll.verdict]
  · rw [run, Watches.run, hget, ← hwaker]

end Course

/-! ## What can be asked -/

/-- Everything that can be asked about the signal is answered by whether it has fired. -/
structure Unanimous (fired : Bool) (s : State) : Prop where
  fire : ∀ name, s.signals.has name = true → (run (.fire name) s).1 = .flag (!fired)
  race : ∀ name threads, s.signals.has name = true →
    (run (.race name threads) s).1 = .number (if fired then 0 else min 1 threads)
  isFired : ∀ name, s.signals.has name = true → (run (.isFired name) s).1 = .flag fired
  /-- Another name of the signal. -/
  named : ∀ name copy, s.signals.has name = true →
    (run (.fire copy) (run (.copy name copy) s).2).1 = .flag (!fired)
  isReady : ∀ handle, s.watches.handles.has handle = true →
    (run (.watch (.isReady handle)) s).1 = .flag fired
  waitBriefly : ∀ handle, s.watches.handles.has handle = true →
    (run (.watch (.waitBriefly handle)) s).1 = .flag fired
  /-- A handle that is taken now. -/
  taken : ∀ name handle, s.signals.has name = true →
    (run (.watch (.isReady handle)) (run (.handle name handle) s).2).1 = .flag fired
  /-- A copy of a handle. -/
  copied : ∀ handle copy, s.watches.handles.has handle = true →
    (run (.watch (.isReady copy)) (run (.watch (.copy handle copy)) s).2).1 = .flag fired
  poll : ∀ future, s.watches.futures.has future = true →
    ∃ verdict, (run (.watch (.poll future)) s).1 = .verdict verdict ∧
      if fired then verdict = .ready ∨ verdict = .done else verdict = .pending
  /-- What is shown of names and handles after each step. -/
  reported : ∀ answer, (∀ entry ∈ (report answer s).fired, entry.2 = fired) ∧
    ∀ entry ∈ (report answer s).ready, entry.2 = fired

/-- With one signal, all that can be asked depends on whether it has fired. -/
theorem Single.unanimous (hs : Single id s) : Unanimous (s.board.isFired id) s := by
  -- Every name that is kept is one of the signal, and so is every handle.
  have hname : ∀ name, s.signals.has name = true → s.signals.get? name = some id := by
    intro name h
    obtain ⟨other, hget⟩ := Named.has_eq_true_iff.1 h
    exact hs.name _ (Named.mem_of_get? hget) ▸ hget
  have hhandle : ∀ handle, s.watches.handles.has handle = true →
      s.watches.handles.get? handle = some (.on id) := by
    intro handle h
    obtain ⟨other, hget⟩ := Named.has_eq_true_iff.1 h
    exact hs.handle _ (Named.mem_of_get? hget) ▸ hget
  refine ⟨fun name h => ?_, fun name threads h => ?_, fun name h => ?_, fun name copy h => ?_,
    fun handle h => ?_, fun handle h => ?_, fun name handle h => ?_, fun handle copy h => ?_,
    fun future h => ?_, fun answer => ⟨fun entry hentry => ?_, fun entry hentry => ?_⟩⟩
  · simp only [run, hname name h, SignalBoard.fire_fst]
  · -- Of several callers at once the first one decides for the others, who find it fired.
    cases threads with
    | zero => simp [run, hname name h, fireMany]
    | succ threads =>
      simp only [run, hname name h, fireMany_succ, SignalBoard.fire_fst]
      cases s.board.isFired id <;> simp
  · simp only [run, hname name h]
  · simp only [run, hname name h, Named.get?_keep_self, SignalBoard.fire_fst]
  · simp only [run, Watches.run, hhandle handle h, Handle.isReady]
  · simp only [run, Watches.run, hhandle handle h, Handle.isReady]
  · simp only [run, Watches.run, hname name h, Named.get?_keep_self, Handle.isReady]
  · simp only [run, Watches.run, hhandle handle h, Named.get?_keep_self, Handle.isReady]
  · -- A future answers by itself once it has finished, and by the signal before that.
    obtain ⟨w, hget⟩ := Named.has_eq_true_iff.1 h
    refine ⟨_, answer_poll hget, ?_⟩
    obtain ⟨-, hfired, heq⟩ | ⟨-, hfired, heq⟩ | ⟨-, hfired, heq⟩ :=
      (hs.future future w hget).poll_cases <;> simp [heq, hfired, Poll.verdict]
  · obtain ⟨kept, hkept, rfl⟩ := List.mem_map.1 hentry
    rw [hs.name kept hkept]
  · obtain ⟨kept, hkept, rfl⟩ := List.mem_map.1 hentry
    rw [hs.handle kept hkept]
    rfl

/-! ## Signals without a name -/

theorem Does.signals_eq_nil (h : Does s step s') (hnil : s.signals = []) : s'.signals = [] := by
  cases h with
  | fires => exact hnil
  | awaits => exact hnil
  | polls => exact hnil
  | passes hcall hpoll hsignals =>
    refine List.eq_nil_iff_forall_not_mem.2 fun entry hentry => ?_
    simpa [hnil] using hsignals entry hentry

/-- Without a signal at the start there is none at the end. -/
theorem signals_runSteps_eq_nil (hnil : s.signals = [])
    (hsteps : ∀ step ∈ steps, step.bringsIn = false) : (runSteps s steps).signals = [] := by
  induction steps generalizing s with
  | nil => exact hnil
  | cons step rest ih =>
    obtain ⟨hfirst, hrest⟩ := List.forall_mem_cons.1 hsteps
    exact ih ((does_run hfirst s).signals_eq_nil hnil) hrest

/-- Nobody fires a signal that has no name left. -/
theorem not_notified_of_signals_nil (hnil : s.signals = [])
    (hsteps : ∀ step ∈ steps, step.bringsIn = false) : ¬ Happened Notifies s steps := by
  rintro ⟨before, step, after, rfl, hcall⟩
  have hthen := signals_runSteps_eq_nil hnil fun step h => hsteps step (List.mem_append_left _ h)
  have hunknown : ∀ name, ¬ (runSteps s before).signals.has name = true := by
    rw [hthen]
    exact fun _ => nofun
  cases step with
  | fire name => exact hunknown name hcall
  | race name threads => exact hunknown name hcall.1
  | _ => exact hcall

/-! ## Histories of one signal -/

/-- A signal that was made is the only one. -/
theorem single_make (name : String) : Single 0 (run (.make name) {}).2 where
  name := by simp [run, SignalBoard.make, Named.keep]
  handle := nofun
  future := nofun
  waiting := nofun
  woken := nofun

/-- Over every history of one signal, what matters is whether somebody has fired it so far:
* everything that can be asked is answered by that, so the first call that fires the signal is told
  so, and no later one is;
* a future, as long as no other one is made under its name, is pending until then, and after that it
  answers `ready` once and `done` from then on; its waker is woken exactly if the signal has fired
  and the future was polled in vain before;
* once no name of the signal is left, the answers stay what they are. -/
theorem unanimous_runSteps (name : String) (steps : List Step)
    (hsteps : ∀ step ∈ steps, step.bringsIn = false) :
    let start := (run (.make name) {}).2
    let now := runSteps start steps
    ∃ fired : Bool, (fired = true ↔ Happened Notifies start steps) ∧
      Unanimous fired now ∧
      (∀ before handle future after, steps = before ++ .watch (.await handle future) :: after →
        (runSteps start before).watches.handles.has handle = true →
        (∀ other, .watch (.await other future) ∉ after) →
        let made := runSteps start (before ++ [.watch (.await handle future)])
        ∃ finished woken : Bool,
          (finished = true ↔ Happened (Polls future .ready) made after) ∧
          (woken = true ↔ fired = true ∧ Happened (Polls future .pending) made after) ∧
          (run (.watch (.poll future)) now).1 =
            .verdict (if fired then (if finished then .done else .ready) else .pending) ∧
          (run (.watch (.woken future)) now).1 = .flag woken) ∧
      (now.signals = [] → ∀ more, (∀ step ∈ more, step.bringsIn = false) →
        Unanimous fired (runSteps now more)) := by
  intro start now
  -- The signal just made is the only one, and nothing else brings in another.
  have hstart : Single 0 start := single_make name
  obtain ⟨hnow, hfired⟩ := hstart.of_steps hsteps
  rw [or_iff_right (show ¬ start.board.isFired 0 = true from nofun)] at hfired
  refine ⟨_, hfired, hnow.unanimous, fun before handle future after heq hhas hnone => ?_,
    fun hnil more hmore => ?_⟩
  · subst heq
    exact (Course.of_await_in hstart hsteps hhas hnone).answers hnow
  · -- Without a name nobody can fire it any more, so what was the answer stays so.
    obtain ⟨hlater, hfired'⟩ := hnow.of_steps hmore
    rw [or_iff_left (not_notified_of_signals_nil hnil hmore)] at hfired'
    rw [← Bool.eq_iff_iff.2 hfired']
    exact hlater.unanimous

/-- A future is polled in vain, and the name and the handle that it goes back to are let go, but not
before there is another name. -/
def halfPolled : List Step :=
  [.handle "n" "h", .watch (.await "h" "f"), .watch (.poll "f"), .copy "n" "m", .drop "n",
    .watch (.drop "h")]

/-- If the signal is fired by the other name, the future is woken, and a handle that is taken
afterwards is ready. If this name is let go too, the future stays pending whatever is done. -/
theorem unanimous_runSteps_halfPolled :
    let start := (run (.make "n") {}).2
    let called := halfPolled ++ [.fire "m", .handle "m" "late"]
    let unnamed := halfPolled ++ [.drop "m"]
    (∀ step ∈ called, step.bringsIn = false) ∧ (∀ step ∈ unnamed, step.bringsIn = false) ∧
      (run (.watch (.isReady "late")) (runSteps start called)).1 = .flag true ∧
      (run (.watch (.woken "f")) (runSteps start called)).1 = .flag true ∧
      ∀ more, (∀ step ∈ more, step.bringsIn = false) →
        Unanimous false (runSteps (runSteps start unnamed) more) := by
  intro start called unnamed
  have hcalled : ∀ step ∈ called, step.bringsIn = false := by decide
  have hunnamed : ∀ step ∈ unnamed, step.bringsIn = false := by decide
  obtain ⟨fired, hfired, hsay, hcourse, -⟩ := unanimous_runSteps "n" called hcalled
  obtain rfl : fired = true := hfired.2 ⟨halfPolled, .fire "m", [.handle "m" "late"], rfl, rfl⟩
  obtain ⟨-, woken, -, hwoken, -, hasked⟩ :=
    hcourse [.handle "n" "h"] "h" "f" (called.drop 2) rfl rfl (by simp [called, halfPolled])
  have hwake : woken = true :=
    hwoken.2 ⟨rfl, [], .watch (.poll "f"), called.drop 3, rfl, rfl, rfl⟩
  obtain ⟨still, -, hpending, -, hforever⟩ := unanimous_runSteps "n" unnamed hunnamed
  obtain rfl : still = false := by
    obtain ⟨verdict, hanswer, hverdict⟩ := hpending.poll "f" rfl
    cases still with
    | false => rfl
    | true =>
      obtain rfl : Verdict.pending = verdict := Answer.verdict.inj hanswer
      simp at hverdict
  exact ⟨hcalled, hunnamed, hsay.isReady "late" rfl, hwake ▸ hasked, hforever rfl⟩

end SignalScenario

end CommitPipeline
