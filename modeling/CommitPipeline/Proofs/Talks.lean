import CommitPipeline.Proofs.Frame

/-!
# Negotiations one question at a time

A negotiation asks tracker after tracker, and between two questions anything may happen: another
round is reported, by another caller or by a tracker that is being asked, and finds the mark set. A
talk is a negotiation that may be interrupted between any two of its steps. A talk that nobody
interrupts does what `Pipeline.report`, `Pipeline.schedule` and `Pipeline.complete` do in one go.

The module introduces:

* `Stage`, `Talk` — how far a negotiation has come, and whose it is;
* `Happening` — what becomes of reported rounds and of the mark;
* `Talk.step` — one step of a talk, with `Talk.step_cases` on what it may change;
* `Talk.Alone` — a talk that nobody interrupts; `alone_report`, `alone_schedule`, `alone_complete`.
-/

namespace CommitPipeline

open Pipeline

/-- How far a negotiation has come. -/
inductive Stage where
  /-- The worker has given the mark of its cycle back, and looks for a higher round next. -/
  | looking
  /-- So many trackers were asked what they need. -/
  | asking (asked : Nat) (joint : Need)
  /-- All of them were asked, and the mark is tried next. -/
  | ready (lookback : UInt64)
  /-- The mark is set, and the range is proposed next. -/
  | marked (lookback : UInt64)
  /-- So many trackers were asked to refine the range. -/
  | refining (durable : Round) (asked : Nat) (range : CommitRange)
  /-- A ticket is on its way into the queue. -/
  | sending (ticket : Ticket)

/-- Whose negotiation it is. -/
inductive Purpose where
  /-- A round was reported, and the ticket goes to the worker. -/
  | report
  /-- Somebody wants to have the ticket. -/
  | schedule
  /-- The worker follows a cycle up. -/
  | followUp
  deriving DecidableEq

/-- A negotiation under way. -/
structure Talk where
  /-- Whose it is. -/
  purpose : Purpose
  /-- The round it is about. -/
  committed : Round
  /-- How far it has come. -/
  stage : Stage

/-- Why the mark is given back by somebody who does not look for a higher round. -/
inductive Exit where
  /-- The proposal had no rounds. -/
  | nothingLeft
  /-- A tracker refused any range. -/
  | vetoed
  /-- The trackers left nothing of the range. -/
  | narrowedAway
  /-- The queue did not take the ticket. -/
  | notQueued
  /-- The holder of a ticket has run its cycle. -/
  | committed
  deriving DecidableEq

/-- What becomes of reported rounds and of the mark. -/
inductive Happening where
  /-- A round was reported and remembered. -/
  | recorded (round : Round)
  /-- A negotiation for a round set the mark. -/
  | claimed (committed : Round)
  /-- A negotiation for a round found the mark set. -/
  | refused (committed : Round)
  /-- The mark was given back, and nobody looks for a higher round. -/
  | handedBack (why : Exit)
  /-- The worker gave the mark back, and is going to look for a higher round. -/
  | released
  /-- A negotiation was cut short. -/
  | cutShort
  deriving DecidableEq

namespace Talk

variable {τ : Type}

/-- The negotiation for a reported round. -/
def reporting (round : Round) : Talk := ⟨.report, round, .asking 0 ⟨round, 0⟩⟩

/-- The negotiation of somebody who wants to have the ticket. -/
def scheduling (committed : Round) (lookback : UInt64) : Talk :=
  ⟨.schedule, committed, .ready lookback⟩

/-- What the worker does once it has given the mark of a cycle back. -/
def following (handled : Round) : Talk := ⟨.followUp, handled, .looking⟩

/-- The talk at another stage. -/
def moved (t : Talk) (stage : Stage) : Talk := { t with stage }

/-- What is left of a talk that came to a ticket: the ticket goes into the queue, unless somebody
wants to have it. -/
def send (t : Talk) (k : Ticket) : Option Talk :=
  match t.purpose with
  | .schedule => none
  | .report | .followUp => some (t.moved (.sending k))

/-- A negotiation of the worker that is cut short ends the worker. -/
def cut (t : Talk) (p : Pipeline τ) : Pipeline τ :=
  match t.purpose with
  | .report | .schedule => p
  | .followUp => p.dropIntake

end Talk

/-- The pipeline once one of its trackers has answered. -/
def Pipeline.answered {τ : Type} (p : Pipeline τ) (place : Nat) (t : τ) (effects : Effects) :
    Pipeline τ :=
  { p with trackers := p.trackers.set place t, effects }

namespace Talk

variable {τ : Type} [Tracker τ]

/-- One step of a talk: what is left of it, the pipeline, and what happened. -/
def step (t : Talk) (p : Pipeline τ) : Option Talk × Pipeline τ × List Happening :=
  match t.stage with
  | .looking =>
    if t.committed < p.reported then
      (some { t with committed := p.reported, stage := .asking 0 ⟨p.reported, 0⟩ },
        (p.log (.followUp t.committed p.reported)).remember p.reported, [.recorded p.reported])
    else (none, p, [])
  | .asking asked joint =>
    match p.trackers[asked]? with
    | none => (some (t.moved (.ready joint.lookback)), p, [])
    | some tracker =>
      match needOne t.committed (tracker, p.effects, joint) with
      | (.ok (), tracker, fx, joint) =>
        (some (t.moved (.asking (asked + 1) joint)), p.answered asked tracker fx, [])
      | (.error _, tracker, fx, _) => (none, t.cut (p.answered asked tracker fx), [.cutShort])
  | .ready lookback =>
    match p.claimMark with
    | none => (none, p.log (.alreadyInFlight t.committed), [.refused t.committed])
    | some p => (some (t.moved (.marked lookback)), p, [.claimed t.committed])
  | .marked lookback =>
    let range := p.propose t.committed lookback
    if range.isEmpty then (none, p.clearMark, [.handedBack .nothingLeft])
    else (some (t.moved (.refining p.durable 0 range)), p, [])
  | .refining durable asked range =>
    match p.trackers[asked]? with
    | some tracker =>
      match refineOne t.committed durable (tracker, p.effects, range) with
      | (.ok (), tracker, fx, range) =>
        (some (t.moved (.refining durable (asked + 1) range)), p.answered asked tracker fx, [])
      | (.error (.veto name), tracker, fx, _) =>
        (none, ((p.answered asked tracker fx).log (.vetoed name)).clearMark,
          [.handedBack .vetoed])
      -- The mark stays set.
      | (.error (.fault _), tracker, fx, _) =>
        (none, t.cut (p.answered asked tracker fx), [.cutShort])
    | none =>
      match p.conclude t.committed range with
      | (.error _, p) => (none, t.cut p, [.cutShort])
      | (.ok none, p) => (none, p, [.handedBack .narrowedAway])
      | (.ok (some k), p) => (t.send k, p, [])
  | .sending k =>
    match p.enqueue k with
    | .ok p => (none, p, [])
    | .error refusal =>
      (none, (p.log (.queueRefused k.committed refusal)).clearMark, [.handedBack .notQueued])

/-! ## A talk that nobody interrupts -/

/-- From `p` on nobody interrupts the talk, and it leaves `q`. -/
inductive Alone : Option Talk → Pipeline τ → Pipeline τ → Prop
  | ended (q : Pipeline τ) : Alone none q q
  | step {t : Talk} {p q : Pipeline τ} (h : Alone (t.step p).1 (t.step p).2.1 q) :
      Alone (some t) p q

/-- What a talk leaves that comes to its end with the result of a negotiation. -/
def closing (t : Talk) : Except Fault (Option Ticket) × Pipeline τ → Pipeline τ
  | (.error _, p) => t.cut p
  | (.ok none, p) => p
  | (.ok (some k), p) =>
    match t.purpose with
    | .schedule => p
    | .report | .followUp => p.dispatch k

/-- Puts a question to the trackers behind those that were asked already. -/
def askRest {κ ε : Type} (ask : Act ε (τ × Effects × κ) Unit) (done rest : List τ) (c : κ)
    (p : Pipeline τ) : Except ε Unit × κ × Pipeline τ :=
  let (result, trackers, effects, c) := sweep ask rest (p.effects, c)
  (result, c, { p with trackers := done ++ trackers, effects })

section Rest

omit [Tracker τ]

variable {κ ε : Type} {ask : Act ε (τ × Effects × κ) Unit} {p : Pipeline τ} {done rest : List τ}
  {tracker tracker' : τ} {fx : Effects} {c c' : κ}

theorem getElem?_of_split (hsplit : p.trackers = done ++ tracker :: rest) :
    p.trackers[done.length]? = some tracker := by
  rw [hsplit, List.getElem?_append_right (Nat.le_refl _), Nat.sub_self, List.getElem?_cons_zero]

theorem trackers_answered (hsplit : p.trackers = done ++ tracker :: rest) :
    (p.answered done.length tracker' fx).trackers = (done ++ [tracker']) ++ rest := by
  rw [Pipeline.answered, hsplit, List.set_append_right _ _ (Nat.le_refl _), Nat.sub_self,
    List.set_cons_zero, List.append_assoc, List.singleton_append]

/-- When all trackers were asked, the pipeline is as they left it. -/
theorem askRest_nil (hsplit : p.trackers = done ++ []) :
    askRest ask done [] c p = (.ok (), c, p) := by
  simp only [askRest, sweep, ← hsplit]

/-- A tracker that goes along leaves the question to those behind it. -/
theorem askRest_cons_of_ok
    (h : ask (tracker, p.effects, c) = (.ok (), tracker', fx, c')) :
    askRest ask done (tracker :: rest) c p =
      askRest ask (done ++ [tracker']) rest c' (p.answered done.length tracker' fx) := by
  simp only [askRest, sweep_cons_of_ok rest h, List.append_assoc, List.singleton_append]
  rfl

/-- A tracker that stops leaves those behind it unasked. -/
theorem askRest_cons_of_error {e : ε} (hsplit : p.trackers = done ++ tracker :: rest)
    (h : ask (tracker, p.effects, c) = (.error e, tracker', fx, c')) :
    askRest ask done (tracker :: rest) c p =
      (.error e, c', p.answered done.length tracker' fx) := by
  have htrackers : (p.answered done.length tracker' fx).trackers = done ++ tracker' :: rest := by
    rw [trackers_answered hsplit, List.append_assoc, List.singleton_append]
  simp only [askRest, sweep_cons_of_error rest h, ← htrackers]
  rfl

end Rest

variable {t : Talk} {p q : Pipeline τ}

/-- One step ahead of a talk that nobody interrupts. -/
theorem Alone.of_step {left : Option Talk} {p' : Pipeline τ} {happenings : List Happening}
    (hstep : t.step p = (left, p', happenings)) (h : Alone left p' q) : Alone (some t) p q := by
  apply Alone.step
  rw [hstep]
  exact h

/-- A talk that asks one tracker in each step asks all that are left. -/
theorem alone_asked {κ ε : Type} {ask : Act ε (τ × Effects × κ) Unit} {stage : Nat → κ → Stage}
    {final : Except ε Unit × κ × Pipeline τ → Pipeline τ}
    (hend : ∀ (p : Pipeline τ) place c, p.trackers[place]? = none →
      Alone (some (t.moved (stage place c))) p (final (.ok (), c, p)))
    (hok : ∀ (p : Pipeline τ) place c tracker tracker' fx c', p.trackers[place]? = some tracker →
      ask (tracker, p.effects, c) = (.ok (), tracker', fx, c') →
        (t.moved (stage place c)).step p =
          (some (t.moved (stage (place + 1) c')), p.answered place tracker' fx, []))
    (herror : ∀ (p : Pipeline τ) place c tracker e tracker' fx c',
      p.trackers[place]? = some tracker →
      ask (tracker, p.effects, c) = (.error e, tracker', fx, c') →
        Alone (some (t.moved (stage place c))) p
          (final (.error e, c', p.answered place tracker' fx)))
    {done rest : List τ} (c : κ) (hsplit : p.trackers = done ++ rest) :
    Alone (some (t.moved (stage done.length c))) p (final (askRest ask done rest c p)) := by
  -- By induction on the trackers that are left.
  induction rest generalizing done c p with
  | nil =>
    rw [askRest_nil hsplit]
    apply hend
    rw [hsplit, List.append_nil]
    exact List.getElem?_eq_none (Nat.le_refl _)
  | cons tracker rest ih =>
    have hsome := getElem?_of_split hsplit
    rcases hanswer : ask (tracker, p.effects, c) with ⟨e | _, tracker', fx, c'⟩
    · rw [askRest_cons_of_error hsplit hanswer]
      exact herror p _ c tracker e tracker' fx c' hsome hanswer
    · rw [askRest_cons_of_ok hanswer]
      have hlater := ih c' (@trackers_answered _ p done rest tracker tracker' fx hsplit)
      rw [List.length_append, List.length_singleton] at hlater
      exact .of_step (hok p _ c tracker tracker' fx c' hsome hanswer) hlater

/-- A ticket on its way is put into the queue, and that ends the talk. -/
theorem alone_sending (t : Talk) (k : Ticket) :
    Alone (some (t.moved (.sending k))) p (p.dispatch k) := by
  apply Alone.step
  simp only [step, moved, dispatch]
  cases p.enqueue k with
  | ok q => exact .ended q
  | error refusal => exact .ended _

/-- A talk that came to a ticket ends with it, handed out or in the queue. -/
theorem alone_send (t : Talk) (stage : Stage) (k : Ticket) :
    Alone ((t.moved stage).send k) p (t.closing (.ok (some k), p)) := by
  obtain ⟨purpose, committed, stage'⟩ := t
  cases purpose with
  | report => exact alone_sending ⟨.report, committed, stage'⟩ k
  | schedule => exact .ended p
  | followUp => exact alone_sending ⟨.followUp, committed, stage'⟩ k

/-- When nobody is left to ask, the talk ends as a negotiation with that range does. -/
theorem alone_concluding {durable : Round} {asked : Nat} (range : CommitRange)
    (hasked : p.trackers[asked]? = none) :
    Alone (some (t.moved (.refining durable asked range))) p
      (t.closing (p.conclude t.committed range)) := by
  apply Alone.step
  simp only [step, moved, hasked]
  rcases p.conclude t.committed range with ⟨f | _ | k, q⟩
  · exact .ended _
  · exact .ended _
  · exact alone_send t _ k

/-- What is left of a talk whose trackers were asked to refine the range. -/
def refined (t : Talk) : Except Refusal Unit × CommitRange × Pipeline τ → Pipeline τ
  | (.error (.fault _), _, p) => t.cut p
  | (.error (.veto name), _, p) => (p.log (.vetoed name)).clearMark
  | (.ok (), range, p) => t.closing (p.conclude t.committed range)

/-- Once the mark is set the trackers refine the range one after the other. -/
theorem alone_refining (durable : Round) (range : CommitRange) :
    Alone (some (t.moved (.refining durable 0 range))) p
      (t.refined (askRest (refineOne t.committed durable) [] p.trackers range p)) := by
  refine @alone_asked τ _ t p _ _ (refineOne t.committed durable) (.refining durable) t.refined
    ?_ ?_ ?_ [] p.trackers range rfl
  · intro q place range hnone
    exact alone_concluding range hnone
  · intro q place range tracker tracker' fx range' hsome hanswer
    simp only [step, moved, hsome, hanswer]
  -- A veto gives the mark back, and a fault does not.
  · intro q place range tracker refusal tracker' fx range' hsome hanswer
    apply Alone.step
    cases refusal <;> simp only [step, moved, hsome, hanswer] <;> exact .ended _

/-- A talk that has the mark ends as the negotiation under the mark does. -/
theorem alone_marked (lookback : UInt64) :
    Alone (some (t.moved (.marked lookback))) p
      (t.closing (p.negotiate t.committed lookback)) := by
  -- A proposal without rounds ends the talk before anybody is asked.
  by_cases hempty : (p.propose t.committed lookback).isEmpty
  · rw [negotiate, if_pos hempty]
    exact .of_step (if_pos hempty) (.ended _)
  have hasked := alone_refining (t := t) (p := p) p.durable (p.propose t.committed lookback)
  simp only [askRest, List.nil_append] at hasked
  refine .of_step (if_neg hempty) ?_
  rw [negotiate, if_neg hempty, refineAll]
  rcases hsweep : sweep (refineOne t.committed p.durable) p.trackers
    (p.effects, p.propose t.committed lookback) with ⟨(name | f) | _, trackers, effects, range⟩ <;>
    rw [hsweep] at hasked <;> exact hasked

/-- A talk that tries the mark ends as the whole negotiation does. -/
theorem alone_ready (t : Talk) (lookback : UInt64) :
    Alone (some (t.moved (.ready lookback))) p (t.closing (p.schedule t.committed lookback)) := by
  apply Alone.step
  simp only [step, moved, schedule]
  cases p.claimMark with
  | none => exact .ended _
  | some q => exact alone_marked (t := t) lookback

/-- What is left of a talk whose trackers were asked what they need. -/
def needed (t : Talk) : Except Fault Unit × Need × Pipeline τ → Pipeline τ
  | (.error _, _, p) => t.cut p
  | (.ok (), need, p) => t.closing (p.schedule t.committed need.lookback)

/-- A talk asks the trackers what they need, one after the other, before it tries the mark. -/
theorem alone_asking (need : Need) :
    Alone (some (t.moved (.asking 0 need))) p
      (t.needed (askRest (needOne t.committed) [] p.trackers need p)) := by
  refine @alone_asked τ _ t p _ _ (needOne t.committed) .asking t.needed ?_ ?_ ?_ [] p.trackers
    need rfl
  · intro q place need hnone
    apply Alone.step
    simp only [step, moved, hnone]
    exact alone_ready t need.lookback
  · intro q place need tracker tracker' fx need' hsome hanswer
    simp only [step, moved, hsome, hanswer]
  · intro q place need tracker f tracker' fx need' hsome hanswer
    apply Alone.step
    simp only [step, moved, hsome, hanswer]
    exact .ended _

/-- What a talk about a remembered round leaves is what a report of that round leaves, but for the
worker, which a talk of its own ends by being cut short. -/
theorem alone_remembered (t : Talk) (hpurpose : t.purpose ≠ .schedule) :
    Alone (some (t.moved (.asking 0 ⟨t.committed, 0⟩))) (p.remember t.committed)
      (match p.report t.committed with
        | (.error _, q) => t.cut q
        | (.ok _, q) => q) := by
  have hasked := alone_asking (t := t) (p := p.remember t.committed) ⟨t.committed, 0⟩
  simp only [askRest, List.nil_append] at hasked
  rw [report, needAll]
  rcases hsweep : sweep (needOne t.committed) (p.remember t.committed).trackers
    ((p.remember t.committed).effects, ⟨t.committed, 0⟩) with ⟨f | _, trackers, effects, need⟩ <;>
    rw [hsweep] at hasked
  · exact hasked
  simp only [needed, closing] at hasked
  simp only [Except.map]
  rcases hschedule : schedule t.committed need.lookback
    { p.remember t.committed with trackers, effects } with ⟨f | _ | k, q⟩ <;>
    rw [hschedule] at hasked
  · exact hasked
  · exact hasked
  -- The ticket goes into the queue, as nobody else wants to have it.
  · cases htalk : t.purpose <;> simp only [htalk] at hasked
    · exact hasked
    · exact absurd htalk hpurpose
    · exact hasked

/-- A talk about a reported round leaves what `Pipeline.report` leaves. -/
theorem alone_report (round : Round) :
    Alone (some (reporting round)) (p.remember round) (p.report round).2 := by
  have htalk := alone_remembered (p := p) (reporting round) (by simp [reporting])
  rcases hreport : p.report round with ⟨f | floor, q⟩ <;>
    rw [show p.report (reporting round).committed = _ from hreport] at htalk <;> exact htalk

/-- The talk of somebody who wants to have the ticket leaves what `Pipeline.schedule` leaves. -/
theorem alone_schedule (committed : Round) (lookback : UInt64) :
    Alone (some (scheduling committed lookback)) p (p.schedule committed lookback).2 := by
  have htalk := alone_ready (p := p) (scheduling committed lookback) lookback
  rcases hschedule : p.schedule committed lookback with ⟨f | _ | k, q⟩ <;>
    rw [show p.schedule (scheduling committed lookback).committed lookback = _ from hschedule]
      at htalk <;> exact htalk

/-- Once the mark of a cycle is given back, the talk of the worker leaves what `Pipeline.complete`
leaves; if that is cut short, the worker is gone. -/
theorem alone_complete (handled : Round) :
    Alone (some (following handled)) p.clearMark ((Request.complete handled).run p) := by
  by_cases hmore : handled < p.clearMark.reported
  · refine .of_step (if_pos hmore) ?_
    have htalk := alone_remembered (p := p.clearMark.log (.followUp handled p.clearMark.reported))
      { following handled with committed := p.clearMark.reported } (by simp [following])
    simp only [Request.run, complete, if_pos hmore]
    rcases hreport : (p.clearMark.log (.followUp handled p.clearMark.reported)).report
      p.clearMark.reported with ⟨f | floor, q⟩ <;> rw [hreport] at htalk <;> exact htalk
  · refine .of_step (if_neg hmore) ?_
    simp only [Request.run, complete, if_neg hmore]
    exact .ended _

end Talk

/-! ## What a step may change -/

/-- The mark and the highest reported round are what they were, and no ticket has come in. -/
structure Pipeline.Unmoved {τ : Type} (p q : Pipeline τ) : Prop where
  inFlight : q.inFlight = p.inFlight
  reported : q.reported = p.reported
  queue : q.queue ⊆ p.queue

/-- What does not move in two steps does not move. -/
theorem Pipeline.Unmoved.trans {τ : Type} {p q r : Pipeline τ} (h : p.Unmoved q)
    (h' : q.Unmoved r) : p.Unmoved r where
  inFlight := h'.inFlight.trans h.inFlight
  reported := h'.reported.trans h.reported
  queue := List.Subset.trans h'.queue h.queue

/-- Trackers move none of this. -/
theorem Pipeline.Asked.unmoved {τ : Type} {p q : Pipeline τ} (h : p.Asked q) : p.Unmoved q := by
  obtain ⟨_, _, rfl⟩ := h
  exact ⟨rfl, rfl, List.Subset.refl _⟩

/-- A cycle leaves the mark to those who run it. -/
theorem Pipeline.CycleEnd.unmoved {τ : Type} {p q : Pipeline τ} {result : Except Stop Outcome}
    (h : p.CycleEnd result q) : p.Unmoved q := by
  cases h with
  | fruitless _ hasked => exact hasked.unmoved
  | written store newBase _ _ hasked =>
    have hwritten : p.Unmoved { p with store, durable := newBase, flushed := true } :=
      ⟨rfl, rfl, List.Subset.refl _⟩
    exact hwritten.trans hasked.unmoved

/-- The queue takes a ticket as it is, or it refuses it. -/
theorem Pipeline.enqueue_cases {τ : Type} (k : Ticket) (p : Pipeline τ) :
    p.enqueue k = .ok { p with queue := p.queue ++ [k] } ∨
      ∃ refusal, p.enqueue k = .error refusal := by
  unfold enqueue
  split
  · exact .inr ⟨_, rfl⟩
  all_goals
    split
    · exact .inl rfl
    · exact .inr ⟨_, rfl⟩

namespace Stage

/-- The mark was not tried yet. -/
def Early : Stage → Prop
  | asking .. | ready _ => True
  | looking | marked _ | refining .. | sending _ => False

/-- The mark is set, for a negotiation about a round. -/
def Late (committed : Round) : Stage → Prop
  | marked _ | refining .. => True
  | sending k => k.committed = committed
  | looking | asking .. | ready _ => False

variable {stage : Stage} {committed : Round}

theorem Early.ne_looking (h : stage.Early) : stage ≠ .looking := by
  rintro rfl
  exact h

theorem Late.ne_looking (h : stage.Late committed) : stage ≠ .looking := by
  rintro rfl
  exact h

theorem Late.not_early (h : stage.Late committed) : ¬stage.Early := by
  cases stage with
  | asking => exact h.elim
  | ready => exact h.elim
  | looking | marked | refining | sending => exact id

end Stage

namespace Talk

variable {τ : Type} {t : Talk} {p : Pipeline τ}

/-- What one step of a talk may be: what is left of it, the pipeline, and what happened. -/
inductive Stepped (t : Talk) (p : Pipeline τ) :
    Option Talk × Pipeline τ × List Happening → Prop
  | asks {stage : Stage} {q : Pipeline τ} (hstage : t.stage.Early) (hnext : stage.Early)
      (hq : p.Unmoved q) : Stepped t p (some (t.moved stage), q, [])
  | looks {need : Need} {q : Pipeline τ} (hstage : t.stage = .looking)
      (hmore : t.committed < p.reported) (hq : p.Unmoved q) :
      Stepped t p (some { t with committed := p.reported, stage := .asking 0 need }, q,
        [.recorded p.reported])
  | looked (hstage : t.stage = .looking) (hdone : ¬t.committed < p.reported) :
      Stepped t p (none, p, [])
  | refused {q : Pipeline τ} (hstage : t.stage.Early) (hmark : p.inFlight = true)
      (hq : p.Unmoved q) : Stepped t p (none, q, [.refused t.committed])
  | claimed {lookback : UInt64} (hstage : t.stage.Early) (hmark : p.inFlight = false) :
      Stepped t p (some (t.moved (.marked lookback)), { p with inFlight := true },
        [.claimed t.committed])
  | refines {stage : Stage} {q : Pipeline τ} (hstage : t.stage.Late t.committed)
      (hnext : stage.Late t.committed)
      (hpurpose : ∀ k, stage = .sending k → t.purpose ≠ .schedule) (hq : p.Unmoved q) :
      Stepped t p (some (t.moved stage), q, [])
  | takesAway {q : Pipeline τ} (hstage : t.stage.Late t.committed)
      (hpurpose : t.purpose = .schedule) (hq : p.Unmoved q) : Stepped t p (none, q, [])
  | sends {k : Ticket} (hstage : t.stage = .sending k) :
      Stepped t p (none, { p with queue := p.queue ++ [k] }, [])
  | handsBack {why : Exit} {q : Pipeline τ} (hearly : ¬t.stage.Early)
      (hlooking : t.stage ≠ .looking) (hq : p.Unmoved q) :
      Stepped t p (none, q.clearMark, [.handedBack why])
  | cutShort {q : Pipeline τ} (hq : p.Unmoved q) : Stepped t p (none, q, [.cutShort])

/-- A worker that is cut short takes its queue down with it, so no ticket comes in. -/
theorem unmoved_cut {q : Pipeline τ} (h : p.Unmoved q) : p.Unmoved (t.cut q) := by
  unfold cut
  cases t.purpose with
  | report => exact h
  | schedule => exact h
  | followUp => exact ⟨h.inFlight, h.reported, List.nil_subset _⟩

/-- An answer of a single tracker moves none of this. -/
theorem unmoved_answered (place : Nat) (tracker : τ) (effects : Effects) :
    p.Unmoved (p.answered place tracker effects) := ⟨rfl, rfl, List.Subset.refl _⟩

variable [Tracker τ]

/-- Each step of a talk is one of those, whatever stage it is at. -/
theorem step_cases (t : Talk) (p : Pipeline τ) : t.Stepped p (t.step p) := by
  obtain ⟨purpose, committed, stage⟩ := t
  cases stage with
  | looking =>
    simp only [step]
    split
    · next hmore =>
      -- What is remembered once more is the highest round already.
      have hmax : max p.reported p.reported = p.reported := ite_self _
      exact .looks rfl hmore ⟨rfl, hmax, List.Subset.refl _⟩
    · next hdone => exact .looked rfl hdone
  | asking asked joint =>
    simp only [step]
    split
    · exact .asks trivial trivial (Asked.refl p).unmoved
    · next tracker _ =>
      split
      · exact .asks trivial trivial (unmoved_answered _ _ _)
      · exact .cutShort (unmoved_cut (unmoved_answered _ _ _))
  | ready lookback =>
    simp only [step, claimMark]
    by_cases hmark : p.inFlight
    · rw [if_pos hmark]
      exact .refused trivial hmark (asked_log _).unmoved
    · rw [if_neg hmark]
      exact .claimed trivial (Bool.not_eq_true _ ▸ hmark)
  | marked lookback =>
    simp only [step]
    split
    · exact .handsBack id (by simp) (Asked.refl p).unmoved
    · exact .refines trivial trivial (by simp) (Asked.refl p).unmoved
  | refining durable asked range =>
    simp only [step]
    split
    · next tracker _ =>
      split
      · exact .refines trivial trivial (by simp) (unmoved_answered _ _ _)
      · exact .handsBack id (by simp) ((unmoved_answered _ _ _).trans (asked_log _).unmoved)
      · exact .cutShort (unmoved_cut (unmoved_answered _ _ _))
    -- All were asked, and it depends on what they left of the range.
    · unfold conclude
      by_cases hempty : range.isEmpty
      · simp only [if_pos hempty]
        exact .handsBack id (by simp) (Asked.refl p).unmoved
      simp only [if_neg hempty]
      cases range.newBase with
      | error f => exact .cutShort (unmoved_cut (Asked.refl p).unmoved)
      | ok newBase =>
        cases purpose with
        | report => exact .refines trivial rfl (by simp) (asked_log _).unmoved
        -- Here the ticket leaves the pipeline with the caller, and the mark stays set.
        | schedule => exact .takesAway trivial rfl (asked_log _).unmoved
        | followUp => exact .refines trivial rfl (by simp) (asked_log _).unmoved
  | sending k =>
    simp only [step]
    rcases enqueue_cases k p with heq | ⟨refusal, heq⟩ <;> simp only [heq]
    · exact .sends rfl
    · exact .handsBack id (by simp) (asked_log _).unmoved

end Talk

end CommitPipeline
