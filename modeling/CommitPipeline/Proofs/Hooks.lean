import CommitPipeline.Proofs.Sweep
import CommitPipeline.Proofs.Talks

/-!
# Hooks

A cycle reaches its trackers through three hooks: they are asked to prepare, they are asked to
write, and they are told how it went on. To see in which order hooks are called, whatever the
trackers make of them, trackers are put behind labels. A label notes each hook before the tracker
answers, and lets the answer through.

The store has a part in a cycle as well, for it may refuse a transaction. It stands among the
trackers as a partner without a label. In front of them it refuses to begin a transaction, and
behind them it refuses to end one.

The module introduces:

* `Hook`, `Journal.hooks` — the calls that belong to cycles, in the order of happening;
* `Partner` — a tracker behind a label, or the store;
* `StopsAt` — which of the partners ends a sweep;
* `Notes` — a question that notes one hook, with `Notes.sweep` on what a sweep notes;
* `Pipeline.Silent` — nothing is noted, which holds of all that is done besides cycles.
-/

namespace CommitPipeline

/-- A call that belongs to a cycle. -/
inductive Hook where
  | prepare
  | write
  | told (notice : Notice)
  deriving DecidableEq, Repr

/-- The hook of a call, if it belongs to a cycle. -/
def Call.hook? : Call → Option Hook
  | prepare _ => some .prepare
  | write .. => some .write
  | told n _ => some (.told n)
  | load .. | newBlock .. | need _ | refine .. | close => none

/-- The hooks that were called, each with the label it was noted under. -/
def Journal.hooks (j : Journal) : List (String × Hook) :=
  j.calls.filterMap fun (label, c) => c.hook?.map fun h => (label, h)

/-- A line of the log is no hook. -/
@[simp]
theorem Journal.hooks_event (j : Journal) (e : Event) : hooks (j ++ [.event e]) = hooks j := by
  simp [hooks, calls]

/-- A noted call of a hook is the last hook of the journal. -/
theorem Journal.hooks_call {c : Call} {h : Hook} (hc : c.hook? = some h) (j : Journal)
    (label : String) : hooks (j ++ [.call label c]) = hooks j ++ [(label, h)] := by
  simp [hooks, calls, hc]

/-! ## The partners of a cycle -/

/-- Who has a part in a cycle. -/
inductive Partner (τ : Type) where
  /-- A tracker, whose hooks are noted under a label. -/
  | tracker (label : String) (inner : τ)
  /-- The store, with what it says to the transactions that are to come: `none` if it goes along.
  Once nothing is left in the list it goes along with everything. -/
  | store (verdicts : List (Option PipelineError))

namespace Partner

variable {τ : Type}

/-- The label of a tracker. -/
def label? : Partner τ → Option String
  | tracker label _ => some label
  | store _ => none

variable [Tracker τ]

/-- Asks a tracker behind its label. The journal is the given one, whatever the tracker reports. -/
def via {ε α : Type} (label : String) (journal : Journal) (act : Act ε (τ × Effects) α) (t : τ)
    (fx : Effects) : Except ε α × Partner τ × Effects :=
  let (result, t, fx) := act (t, fx)
  (result, tracker label t, { fx with journal })

/-- A tracker gets ready to write; the store has nothing to prepare. -/
def prepare : Act Stop (Partner τ × Effects × Ticket) Unit
  | (tracker label t, fx, k) =>
    let journal := (fx.noteCall label (.prepare k)).journal
    let (result, t, fx, k) := Tracker.prepare (t, fx, k)
    (result, tracker label t, { fx with journal }, k)
  | (store verdicts, fx, k) => (.ok (), store verdicts, fx, k)

/-- A tracker writes; the store lets the transaction go on or refuses it. -/
def write : Act Stop (Partner τ × Effects × Ticket × Store) Unit
  | (tracker label t, fx, k, s) =>
    let journal := (fx.noteCall label (.write k s.round)).journal
    let (result, t, fx, k, s) := Tracker.write (t, fx, k, s)
    (result, tracker label t, { fx with journal }, k, s)
  | (store (some e :: verdicts), fx, k, s) => (.error (.error e), store verdicts, fx, k, s)
  | (store (none :: verdicts), fx, k, s) => (.ok (), store verdicts, fx, k, s)
  | (store [], fx, k, s) => (.ok (), store [], fx, k, s)

instance : Tracker (Partner τ) where
  name
    | tracker _ t => Tracker.name t
    | store _ => "store"
  load ledger s r
    | (tracker label t, fx) => via label fx.journal (Tracker.load ledger s r) t fx
    | (store verdicts, fx) => (.ok (), store verdicts, fx)
  newBlock block delta
    | (tracker label t, fx) => via label fx.journal (Tracker.newBlock block delta) t fx
    | (store verdicts, fx) => (.ok (), store verdicts, fx)
  need committed
    | (tracker label t, fx) => via label fx.journal (Tracker.need committed) t fx
    | (store verdicts, fx) => (.ok ⟨committed, 0⟩, store verdicts, fx)
  refine committed durable range
    | (tracker label t, fx) => via label fx.journal (Tracker.refine committed durable range) t fx
    | (store verdicts, fx) => (.ok (some range), store verdicts, fx)
  prepare := prepare
  write := write
  notice n k
    | (tracker label t, fx) =>
      via label (fx.noteCall label (.told n k)).journal (Tracker.notice n k) t fx
    | (store verdicts, fx) => (.ok (), store verdicts, fx)
  close
    | (tracker label t, fx) => via label fx.journal Tracker.close t fx
    | (store verdicts, fx) => (.ok (), store verdicts, fx)

end Partner

/-! ## What a sweep notes -/

/-- A sweep ends at the partner in a place, counted from zero: those before it go along, and it
stops with an error. -/
inductive StopsAt {τ κ ε : Type} (ask : Act ε (τ × κ) Unit) : List τ → κ → Nat → ε → Prop
  | here {t t' : τ} {c c' : κ} {e : ε} (rest : List τ) (hstops : ask (t, c) = (.error e, t', c')) :
      StopsAt ask (t :: rest) c 0 e
  | later {t t' : τ} {rest : List τ} {c c' : κ} {place : Nat} {e : ε}
      (hgoes : ask (t, c) = (.ok (), t', c')) (hstops : StopsAt ask rest c' place e) :
      StopsAt ask (t :: rest) c (place + 1) e

/-- A sweep ends at one partner only. -/
theorem StopsAt.unique {τ κ ε : Type} {ask : Act ε (τ × κ) Unit} {partners : List τ} {c : κ}
    {place place' : Nat} {e e' : ε} (h : StopsAt ask partners c place e)
    (h' : StopsAt ask partners c place' e') : place = place' ∧ e = e' := by
  induction h generalizing place' with
  | here rest hstops =>
    cases h' with
    | here _ hstops' =>
      exact ⟨rfl, Except.error.inj (congrArg Prod.fst (hstops.symm.trans hstops'))⟩
    | later hgoes _ => cases hstops.symm.trans hgoes
  | later hgoes _ ih =>
    cases h' with
    | here _ hstops' => cases hgoes.symm.trans hstops'
    | later hgoes' hlater =>
      obtain ⟨-, -, rfl⟩ := Prod.mk.inj (hgoes.symm.trans hgoes') |>.imp_right Prod.mk.inj
      exact (ih hlater).imp_left (congrArg (· + 1))

/-- A sweep that went through stopped at nobody. -/
theorem not_stopsAt_of_ok {τ κ ε : Type} {ask : Act ε (τ × κ) Unit} {partners : List τ} {c : κ}
    (hok : (sweep ask partners c).1 = .ok ()) (place : Nat) (e : ε) :
    ¬ StopsAt ask partners c place e := by
  intro h
  induction h with
  | here rest hstops =>
    rw [sweep_cons_of_error rest hstops] at hok
    cases hok
  | @later _ _ rest _ _ _ _ hgoes _ ih =>
    rw [sweep_cons_of_ok rest hgoes] at hok
    exact ih hok

/-- Where every answer keeps the partner's name and adds to a list what is said of that name, a
sweep adds what is said of all names, or of those up to the partner that ends it. -/
theorem sweep_heard {τ κ ε ν β : Type} (ask : Act ε (τ × κ) Unit) (name : τ → ν)
    (heard : κ → List β) (note : ν → List β) (hname : ∀ t c, name (ask (t, c)).2.1 = name t)
    (hheard : ∀ t c, heard (ask (t, c)).2.2 = heard c ++ note (name t)) (partners : List τ)
    (c : κ) :
    (sweep ask partners c).2.1.map name = partners.map name ∧
      (((sweep ask partners c).1 = .ok () ∧
          heard (sweep ask partners c).2.2 = heard c ++ (partners.map name).flatMap note) ∨
        ∃ place e, (sweep ask partners c).1 = .error e ∧ StopsAt ask partners c place e ∧
          heard (sweep ask partners c).2.2 =
            heard c ++ ((partners.map name).take (place + 1)).flatMap note) := by
  -- By induction on the partners still to be asked.
  induction partners generalizing c with
  | nil => exact ⟨rfl, .inl ⟨rfl, (List.append_nil _).symm⟩⟩
  | cons t rest ih =>
    have ht := hname t c
    have hnoted := hheard t c
    rcases hask : ask (t, c) with ⟨e | _, t', c'⟩ <;> rw [hask] at ht hnoted
    · rw [sweep_cons_of_error rest hask]
      refine ⟨congrArg (· :: _) ht, .inr ⟨0, e, rfl, .here rest hask, ?_⟩⟩
      simpa using hnoted
    · rw [sweep_cons_of_ok rest hask]
      obtain ⟨hnames, ⟨hok, hlater⟩ | ⟨place, e, herror, hstops, hlater⟩⟩ := ih c' <;>
        rw [hnoted, List.append_assoc, ← List.flatMap_cons] at hlater
      · exact ⟨List.cons_eq_cons.mpr ⟨ht, hnames⟩, .inl ⟨hok, hlater⟩⟩
      · exact ⟨List.cons_eq_cons.mpr ⟨ht, hnames⟩,
          .inr ⟨place + 1, e, herror, .later hask hstops, hlater⟩⟩

/-- Partners are called one after the other; those without a label hear nothing of it. -/
def called (hook : Option Hook) (roster : List (Option String)) : List (String × Hook) :=
  roster.filterMap fun label? => label?.bind fun label => hook.map fun h => (label, h)

/-- A question that is no hook is noted under no label. -/
@[simp]
theorem called_none (roster : List (Option String)) : called none roster = [] := by
  simp [called]

/-- A question that notes a hook, or none, of each tracker it is put to. -/
structure Notes {τ κ ε : Type} (effects : κ → Effects) (hook : Option Hook)
    (ask : Act ε (Partner τ × κ) Unit) : Prop where
  label? : ∀ t c, (ask (t, c)).2.1.label? = t.label?
  hooks : ∀ t c, (effects (ask (t, c)).2.2).journal.hooks =
    (effects c).journal.hooks ++ called hook [t.label?]

namespace Notes

variable {τ κ ε : Type} {effects : κ → Effects} {hook : Option Hook}
  {ask : Act ε (Partner τ × κ) Unit}

/-- A sweep keeps the labels, and notes its hook of all partners up to the one that stops it. -/
theorem sweep (h : Notes effects hook ask) (partners : List (Partner τ)) (c : κ) :
    (sweep ask partners c).2.1.map Partner.label? = partners.map Partner.label? ∧
      (((sweep ask partners c).1 = .ok () ∧
          (effects (sweep ask partners c).2.2).journal.hooks =
            (effects c).journal.hooks ++ called hook (partners.map Partner.label?)) ∨
        ∃ place e, (sweep ask partners c).1 = .error e ∧ StopsAt ask partners c place e ∧
          (effects (sweep ask partners c).2.2).journal.hooks = (effects c).journal.hooks ++
            called hook ((partners.map Partner.label?).take (place + 1))) := by
  have hflat : ∀ roster, called hook roster = roster.flatMap fun label => called hook [label] := by
    intro roster
    simp [called, List.filterMap_eq_flatMap_toList]
  simp only [hflat (List.map _ _), hflat (List.take _ _)]
  exact sweep_heard ask Partner.label? (fun c => (effects c).journal.hooks)
    (fun label => called hook [label]) h.label? h.hooks partners c

/-- A sweep that runs to its end notes its hook of all partners. -/
theorem sweep_of_ok (h : Notes effects hook ask) {partners answered : List (Partner τ)} {c c' : κ}
    (hok : CommitPipeline.sweep ask partners c = (.ok (), answered, c')) :
    (effects c').journal.hooks =
      (effects c).journal.hooks ++ called hook (partners.map Partner.label?) := by
  obtain ⟨-, ⟨-, hnoted⟩ | ⟨place, e, herror, -⟩⟩ := h.sweep partners c
  · rw [hok] at hnoted
    exact hnoted
  · rw [hok] at herror
    cases herror

/-- A sweep that is stopped notes its hook of the partners up to the one that stops it. -/
theorem sweep_of_error (h : Notes effects hook ask) {partners answered : List (Partner τ)}
    {c c' : κ} {e : ε} (herror : CommitPipeline.sweep ask partners c = (.error e, answered, c')) :
    ∃ place, StopsAt ask partners c place e ∧
      (effects c').journal.hooks = (effects c).journal.hooks ++
        called hook ((partners.map Partner.label?).take (place + 1)) := by
  obtain ⟨-, ⟨hok, -⟩ | ⟨place, e', herror', hstops, hnoted⟩⟩ := h.sweep partners c
  · rw [herror] at hok
    cases hok
  · rw [herror] at herror' hnoted
    cases herror'
    exact ⟨place, hstops, hnoted⟩

/-- A question that notes nothing leaves labels and hooks alone, wherever the sweep ends. -/
theorem sweep_of_none (h : Notes effects none ask) (partners : List (Partner τ)) (c : κ) :
    (CommitPipeline.sweep ask partners c).2.1.map Partner.label? = partners.map Partner.label? ∧
      (effects (CommitPipeline.sweep ask partners c).2.2).journal.hooks =
        (effects c).journal.hooks := by
  obtain ⟨hlabels, ⟨-, hnoted⟩ | ⟨place, e, -, -, hnoted⟩⟩ := h.sweep partners c <;>
    rw [called_none, List.append_nil] at hnoted
  · exact ⟨hlabels, hnoted⟩
  · exact ⟨hlabels, hnoted⟩

end Notes

/-! ## What the questions of the pipeline note -/

namespace Partner

variable {τ : Type} [Tracker τ]

/-- Loads are no hooks. -/
theorem notes_load (ledger : LedgerView) (s : Store) (r : Round) :
    Notes (τ := τ) id none (Tracker.load ledger s r) where
  label? t fx := by cases t <;> rfl
  hooks t fx := by cases t <;> simp [Tracker.load, via]

/-- Blocks are no hooks. -/
theorem notes_newBlock (block : Block) (delta : Delta) :
    Notes (τ := τ) id none (Tracker.newBlock block delta) where
  label? t fx := by cases t <;> rfl
  hooks t fx := by cases t <;> simp [Tracker.newBlock, via]

/-- Closing is no hook. -/
theorem notes_close : Notes (τ := τ) id none Tracker.close where
  label? t fx := by cases t <;> rfl
  hooks t fx := by cases t <;> simp [Tracker.close, via]

/-- A notice is noted by every label it reaches. -/
theorem notes_notice (n : Notice) (k : Ticket) :
    Notes (τ := τ) id (some (.told n)) (Tracker.notice n k) where
  label? t fx := by cases t <;> rfl
  hooks t fx := by
    cases t with
    | tracker label inner => exact Journal.hooks_call rfl _ _
    | store verdicts => exact (List.append_nil _).symm

/-- The preparation is noted before the tracker answers, so also where it objects. -/
theorem notes_prepare : Notes (τ := τ) Prod.fst (some .prepare) Tracker.prepare where
  label? t c := by cases t <;> rfl
  hooks t c := by
    cases t with
    | tracker label inner => exact Journal.hooks_call rfl _ _
    | store verdicts => exact (List.append_nil _).symm

/-- So is the writing. -/
theorem notes_write : Notes (τ := τ) Prod.fst (some .write) Tracker.write where
  label? t c := by
    cases t with
    | tracker label inner => rfl
    -- Whatever the store says to the transaction, it is no hook.
    | store verdicts => rcases verdicts with _ | ⟨_ | e, verdicts⟩ <;> rfl
  hooks t c := by
    cases t with
    | tracker label inner => exact Journal.hooks_call rfl _ _
    | store verdicts =>
      rcases verdicts with _ | ⟨_ | e, verdicts⟩ <;> exact (List.append_nil _).symm

/-- The question for needs is no hook. -/
theorem notes_needOne (committed : Round) :
    Notes (τ := τ) Prod.fst none (Pipeline.needOne committed) where
  label? t c := by
    obtain ⟨fx, joint⟩ := c
    cases t with
    | tracker label inner =>
      simp only [Pipeline.needOne, Tracker.need, via]
      rcases Tracker.need committed (inner, fx) with ⟨f | need, t', fx'⟩ <;> rfl
    | store verdicts => rfl
  hooks t c := by
    obtain ⟨fx, joint⟩ := c
    cases t with
    | tracker label inner =>
      simp only [Pipeline.needOne, Tracker.need, via, called_none, List.append_nil]
      rcases Tracker.need committed (inner, fx) with ⟨f | need, t', fx'⟩ <;> rfl
    | store verdicts => exact (List.append_nil _).symm

/-- The narrowing of a range is no hook. -/
theorem notes_refineOne (committed durable : Round) :
    Notes (τ := τ) Prod.fst none (Pipeline.refineOne committed durable) where
  label? t c := by
    obtain ⟨fx, range⟩ := c
    cases t with
    | tracker label inner =>
      simp only [Pipeline.refineOne, Tracker.refine, via]
      rcases Tracker.refine committed durable range (inner, fx) with
        ⟨f | _ | range', t', fx'⟩ <;> rfl
    | store verdicts => rfl
  hooks t c := by
    obtain ⟨fx, range⟩ := c
    cases t with
    | tracker label inner =>
      simp only [Pipeline.refineOne, Tracker.refine, via, called_none, List.append_nil]
      rcases Tracker.refine committed durable range (inner, fx) with
        ⟨f | _ | range', t', fx'⟩ <;> rfl
    | store verdicts => exact (List.append_nil _).symm

end Partner

/-! ## What is done besides cycles -/

namespace Pipeline

variable {τ : Type} {p q r : Pipeline (Partner τ)}

/-- The labels of the partners in the order in which they are asked. -/
def roster (p : Pipeline (Partner τ)) : List (Option String) := p.trackers.map Partner.label?

/-- The hooks that were called so far. -/
def hooks (p : Pipeline (Partner τ)) : List (String × Hook) := p.effects.journal.hooks

/-- From `p` to `q` no hook was called, and the partners are who they were. -/
structure Silent (p q : Pipeline (Partner τ)) : Prop where
  roster : q.roster = p.roster
  hooks : q.hooks = p.hooks

namespace Silent

@[refl]
theorem refl (p : Pipeline (Partner τ)) : p.Silent p := ⟨rfl, rfl⟩

theorem trans (h : p.Silent q) (h' : q.Silent r) : p.Silent r where
  roster := h'.roster.trans h.roster
  hooks := h'.hooks.trans h.hooks

end Silent

/-- The log is apart from the hooks in the journal. -/
theorem silent_log (e : Event) : p.Silent (p.log e) := ⟨rfl, Journal.hooks_event _ e⟩

/-- Taking the mark off calls no tracker. -/
theorem silent_clearMark : p.Silent p.clearMark := ⟨rfl, rfl⟩

/-- Giving the queue up calls no tracker. -/
theorem silent_dropIntake : p.Silent p.dropIntake := ⟨rfl, rfl⟩

/-- A worker that starts calls no tracker. -/
theorem silent_startWorker (h : p.startWorker = .ok q) : p.Silent q := by
  unfold startWorker at h
  split at h <;> cases h
  exact ⟨rfl, rfl⟩

/-- A worker that takes a ticket calls no tracker before the cycle. -/
theorem silent_takeTicket {k : Ticket} (h : p.takeTicket = some (k, q)) : p.Silent q := by
  unfold takeTicket at h
  split at h <;> cases h
  exact ⟨rfl, rfl⟩

/-- Putting a ticket into the queue calls no tracker. -/
theorem silent_dispatch (k : Ticket) (p : Pipeline (Partner τ)) : p.Silent (p.dispatch k) := by
  unfold dispatch
  rcases enqueue_cases k p with heq | ⟨refusal, heq⟩ <;> rw [heq]
  · exact ⟨rfl, rfl⟩
  · exact (silent_log _).trans silent_clearMark

/-- The end of a negotiation calls no tracker. -/
theorem silent_conclude (committed : Round) (range : CommitRange) :
    p.Silent (p.conclude committed range).2 := by
  unfold conclude
  split
  · exact silent_clearMark
  · split
    · exact .refl p
    · exact silent_log _

/-- A question that is no hook is silent, whatever trackers answer. -/
theorem silent_ask {ε : Type} {a : Act ε (Partner τ × Effects) Unit} (ha : Notes id none a)
    (p : Pipeline (Partner τ)) : p.Silent (p.ask a).2 :=
  have hsweep := ha.sweep_of_none p.trackers p.effects
  ⟨hsweep.1, hsweep.2⟩

variable [Tracker τ]

/-- No hook is called for a block. -/
theorem silent_newBlock (block : Block) (delta : Delta) (p : Pipeline (Partner τ)) :
    p.Silent (p.newBlock block delta).2 := silent_ask (Partner.notes_newBlock block delta) p

/-- No hook is called when trackers are closed. -/
theorem silent_close (p : Pipeline (Partner τ)) : p.Silent p.close.2 := by
  have hask := silent_ask Partner.notes_close p
  rcases close_cases p with heq | heq <;> rw [heq]
  · exact hask
  · exact hask.trans (silent_log _)

/-- No hook is called in a load, replayed blocks included. -/
theorem silent_load (ledger : LedgerView) (p : Pipeline (Partner τ)) :
    p.Silent (p.load ledger).2 := by
  refine load_preserves (I := fun q => p.Silent q) (.refl p)
    (silent_ask (Partner.notes_load ledger _ _) p) ?_ ?_ ?_
  · exact fun q r h => h.trans (silent_log _)
  · exact fun q block delta h => h.trans (silent_newBlock block delta q)
  · exact fun q replayed h => h.trans ⟨rfl, Journal.hooks_event _ _⟩

/-- No hook is called to find what trackers need. -/
theorem silent_needAll (committed : Round) (p : Pipeline (Partner τ)) :
    p.Silent (p.needAll committed).2 :=
  have hsweep := (Partner.notes_needOne committed).sweep_of_none p.trackers
    (p.effects, ⟨committed, 0⟩)
  ⟨hsweep.1, hsweep.2⟩

/-- No hook is called to narrow a range. -/
theorem silent_refineAll (committed : Round) (range : CommitRange) (p : Pipeline (Partner τ)) :
    p.Silent (p.refineAll committed range).2 :=
  have hsweep := (Partner.notes_refineOne committed p.durable).sweep_of_none p.trackers
    (p.effects, range)
  ⟨hsweep.1, hsweep.2⟩

/-- No hook is called in a negotiation: hooks belong to cycles. -/
theorem silent_schedule (committed : Round) (lookback : UInt64) (p : Pipeline (Partner τ)) :
    p.Silent (p.schedule committed lookback).2 := by
  unfold schedule claimMark
  by_cases hmark : p.inFlight
  · rw [if_pos hmark]
    exact silent_log _
  rw [if_neg hmark]
  have hclaim : p.Silent { p with inFlight := true } := ⟨rfl, rfl⟩
  refine hclaim.trans ?_
  -- The trackers are asked under the mark, and each way out leaves at most a line in the journal.
  generalize ({ p with inFlight := true } : Pipeline (Partner τ)) = q
  unfold negotiate
  simp only
  split
  · exact silent_clearMark
  have hrefine := silent_refineAll committed (q.propose committed lookback) q
  rcases h : q.refineAll committed (q.propose committed lookback) with
    ⟨(tracker | f) | range, r⟩ <;> rw [h] at hrefine
  · exact (hrefine.trans (silent_log _)).trans silent_clearMark
  · exact hrefine
  · exact hrefine.trans (silent_conclude committed range)

/-- No hook is called in a report. -/
theorem silent_report (round : Round) (p : Pipeline (Partner τ)) :
    p.Silent (p.report round).2 := by
  have hremember : p.Silent (p.remember round) := ⟨rfl, rfl⟩
  exact report_preserves (I := fun q => p.Silent q) (hremember.trans (silent_needAll round _))
    (fun q lookback h => h.trans (silent_schedule round lookback q))
    fun q k h => h.trans (silent_dispatch k q)

/-- No hook is called when the worker looks for more to do. -/
theorem silent_complete (handled : Round) (p : Pipeline (Partner τ)) :
    p.Silent (p.complete handled).2 := by
  obtain ⟨-, heq⟩ | ⟨-, result, q, hreport, heq⟩ := complete_cases handled p <;> rw [heq]
  · exact silent_clearMark
  · have hlog : p.Silent (p.clearMark.log (.followUp handled p.reported)) :=
      silent_clearMark.trans (silent_log _)
    have hsilent := hlog.trans (silent_report p.reported _)
    rw [hreport] at hsilent
    exact hsilent

/-- A request that runs no cycle calls no hook. -/
theorem silent_request {request : Request} (hcommit : ∀ k, request ≠ .commit k)
    (hwork : ∀ k, request ≠ .work k) (p : Pipeline (Partner τ)) : p.Silent (request.run p) := by
  cases request with
  | commit k => exact absurd rfl (hcommit k)
  | work k => exact absurd rfl (hwork k)
  | report round => exact silent_report round p
  | schedule committed lookback => exact silent_schedule committed lookback p
  | startWorker =>
    simp only [Request.run]
    split
    · next h => exact silent_startWorker h
    · exact .refl p
  | takeTicket =>
    simp only [Request.run]
    split
    · next h => exact silent_takeTicket h
    · exact .refl p
  | complete handled =>
    have hcomplete := silent_complete handled p
    rw [Request.run]
    -- A worker that is cut short drops its queue, which calls nobody.
    rcases h : p.complete handled with ⟨f | _, q⟩ <;> rw [h] at hcomplete
    · exact hcomplete.trans silent_dropIntake
    · exact hcomplete
  | retire => exact (silent_log _).trans silent_dropIntake

end Pipeline

end CommitPipeline
