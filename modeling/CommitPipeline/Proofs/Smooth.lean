import CommitPipeline.Proofs.Frame

/-!
# Journals without failures

Which lines of the log say that something went wrong, and which steps report no such line whatever
comes of them. A negotiation, a dispatch and a cycle may report one, so for these it depends on the
trackers; the steps of this module are the others.

The module introduces:

* `Event.isFailure` — lines that say that something went wrong;
* `Journal.Smooth` — a journal without such lines;
* `Pipeline.Smooth` — a pipeline with such a journal, with one lemma for each of these steps.
-/

namespace CommitPipeline

/-- Whether a line says that a range was refused or narrowed, that a ticket was not queued, or that
a cycle did not land. -/
def Event.isFailure : Event → Bool
  | vetoed _ | queueRefused .. | narrowed .. => true
  | outOfOrder _ | prepareFailed _ | rolledBack _ | stagedDropped .. => true
  | cycleSkipped | cycleAbandoned _ | cycleFaulted => true
  | _ => false

/-- Nothing went wrong as far as the journal tells. -/
def Journal.Smooth (j : Journal) : Prop := ∀ e ∈ j.events, e.isFailure = false

namespace Effects

variable {fx : Effects} {e : Event}

/-- A line that is no failure keeps the journal smooth. -/
theorem smooth_log (h : fx.journal.Smooth) (he : e.isFailure = false) :
    (fx.log e).journal.Smooth := by
  intro other hother
  simp only [log, Journal.events, List.filterMap_append, List.mem_append] at hother
  rcases hother with hother | hother
  · exact h other hother
  · obtain rfl : other = e := by simpa using hother
    exact he

/-- The same of a line that is reported on a condition. -/
theorem smooth_logIf (condition : Bool) (h : fx.journal.Smooth) (he : e.isFailure = false) :
    (fx.logIf condition e).journal.Smooth := by
  unfold logIf
  split
  · exact smooth_log h he
  · exact h

/-- Noted calls are not lines, so any of them may be noted. -/
theorem smooth_noteCall (tracker : String) (c : Call) (h : fx.journal.Smooth) :
    (fx.noteCall tracker c).journal.Smooth := by
  intro other hother
  apply h
  simpa [noteCall, Journal.events] using hother

end Effects

namespace Bulletin

variable {fx : Effects}

/-- Firing signals is no failure. -/
theorem smooth_announce (r : Round) (b : Bulletin) (h : fx.journal.Smooth) :
    (announce r (b, fx)).2.2.journal.Smooth := by
  simp only [announce]
  split
  · exact h
  · exact Effects.smooth_logIf _ h rfl

/-- A bulletin in memory that hears of a block reports no failure. -/
theorem smooth_announceBlock (block : Block) (b : Bulletin) (h : fx.journal.Smooth) :
    (announceBlock block (b, fx)).2.2.journal.Smooth := by
  simp only [announceBlock]
  split
  · exact h
  · exact smooth_announce _ b h

/-- Nor does a durable bulletin that hears of a landed cycle. -/
theorem smooth_announceLanded (k : Ticket) (b : Bulletin) (h : fx.journal.Smooth) :
    (announceLanded k (b, fx)).2.2.journal.Smooth := by
  simp only [announceLanded]
  split
  · exact h
  · exact smooth_announce _ b h

end Bulletin

namespace Member

variable {γ : Type} [Guest γ] {fx : Effects}

/-- A member that starts from a store reports no failure, even if it cannot start. -/
theorem smooth_load (ledger : LedgerView) (s : Store) (r : Round) (t : Member γ)
    (h : fx.journal.Smooth) : (load ledger s r (t, fx)).2.2.journal.Smooth := by
  cases t with
  | memory b => exact Effects.smooth_logIf _ h rfl
  | durable b => exact Effects.smooth_logIf _ h rfl
  | tail t => cases hreload : t.reload s r <;> simp only [load, hreload] <;> exact h
  | guest g => exact Effects.smooth_noteCall _ _ h

/-- Nor does a member that takes a block in. -/
theorem smooth_newBlock (block : Block) (delta : Delta) (t : Member γ) (h : fx.journal.Smooth) :
    (newBlock block delta (t, fx)).2.2.journal.Smooth := by
  cases t with
  | memory b => exact Bulletin.smooth_announceBlock block b h
  | durable b => exact h
  | tail t => exact h
  | guest g => exact Effects.smooth_noteCall _ _ h

/-- What goes wrong in the preparation is reported by the cycle, not by the member. -/
theorem smooth_prepare (t : Member γ) (k : Ticket) (h : fx.journal.Smooth) :
    (prepare (t, fx, k)).2.2.1.journal.Smooth := by
  cases t with
  | memory b => exact h
  | durable b => exact h
  | tail t => cases hstage : t.stage k.range <;> simp only [prepare, hstage] <;> exact h
  | guest g => exact Effects.smooth_noteCall _ _ h

/-- What goes wrong in a transaction is reported by the cycle, not by the member. -/
theorem smooth_write (t : Member γ) (k : Ticket) (s : Store) (h : fx.journal.Smooth) :
    (write (t, fx, k, s)).2.2.1.journal.Smooth := by
  cases t with
  | memory b => exact h
  | durable b => exact h
  | tail t =>
    rcases hwrite : t.writeStaged k.range s with ⟨stop | pruned, s'⟩ <;> simp only [write, hwrite]
    · exact h
    · exact Effects.smooth_logIf _ h rfl
  | guest g => exact Effects.smooth_noteCall _ _ h

/-- Only of a cycle that failed a tail has something to report that went wrong. -/
theorem smooth_notice {n : Notice} (hn : n = .landed ∨ n = .released) (k : Ticket) (t : Member γ)
    (h : fx.journal.Smooth) : (notice n k (t, fx)).2.2.journal.Smooth := by
  cases t with
  | memory b => exact h
  | durable b =>
    rcases hn with rfl | rfl
    · exact h
    · exact Bulletin.smooth_announceLanded k b h
  | tail t =>
    rcases hn with rfl | rfl
    · cases hadvance : t.advance k.range <;> simp only [notice, hadvance] <;> exact h
    · exact h
  | guest g => exact Effects.smooth_noteCall _ _ h

end Member

namespace Pipeline

/-- Nothing went wrong so far, as far as the journal of the pipeline tells. -/
def Smooth {τ : Type} (p : Pipeline τ) : Prop := p.effects.journal.Smooth

section Trackers

variable {τ : Type} {p : Pipeline τ} {e : Event}

/-- A pipeline may report any line that is no failure. -/
theorem smooth_log (hp : p.Smooth) (he : e.isFailure = false) : (p.log e).Smooth :=
  Effects.smooth_log hp he

/-- A question that no tracker answers with such a line keeps a pipeline smooth. -/
theorem smooth_ask {ε : Type} {a : Act ε (τ × Effects) Unit}
    (h : ∀ t fx, fx.journal.Smooth → (a (t, fx)).2.2.journal.Smooth) (hp : p.Smooth) :
    (p.ask a).2.Smooth :=
  (sweep_forall (G := fun _ => True) (I := fun fx : Effects => fx.journal.Smooth)
    (fun t fx _ hfx => ⟨trivial, h t fx hfx⟩) p.trackers (fun _ _ => trivial) hp).2

end Trackers

variable {γ : Type} [Guest γ] {p q : Pipeline (Member γ)}

/-- Blocks are taken in without failures. -/
theorem smooth_newBlock (block : Block) (delta : Delta) (hp : p.Smooth) :
    (p.newBlock block delta).2.Smooth :=
  smooth_ask (fun t _ h => Member.smooth_newBlock block delta t h) hp

/-- Loads report no failure: where one is stopped, its caller gets the error. -/
theorem smooth_load (ledger : LedgerView) (hp : p.Smooth) : (p.load ledger).2.Smooth := by
  refine load_preserves (I := Smooth) hp ?_ ?_ ?_ ?_
  · exact smooth_ask (fun t _ h => Member.smooth_load ledger p.store p.store.round t h) hp
  · intro _ _ h
    exact smooth_log h rfl
  · intro _ block delta h
    exact smooth_newBlock block delta h
  · intro q replayed h
    exact smooth_log (p := { q with durable := p.store.round, loaded := true }) h rfl

/-- The preparation of all trackers reports nothing itself. -/
theorem smooth_prepareAll (k : Ticket) (hp : p.Smooth) : (p.prepareAll k).2.2.Smooth := by
  have hsweep := (sweep_forall (G := fun _ : Member γ => True)
    (I := fun c : Effects × Ticket => c.1.journal.Smooth)
    (fun t c _ hc => ⟨trivial, Member.smooth_prepare t c.2 hc⟩) p.trackers
    (c := (p.effects, k)) (fun _ _ => trivial) hp).2
  exact hsweep

/-- A transaction reports nothing itself, whether it is written or given up. -/
theorem smooth_transaction (newBase : Round) (k : Ticket) (hp : p.Smooth) :
    (p.transaction newBase k).2.2.Smooth := by
  have hsweep := (sweep_forall (G := fun _ : Member γ => True)
    (I := fun c : Effects × Ticket × Store => c.1.journal.Smooth)
    (fun t c _ hc => ⟨trivial, Member.smooth_write t c.2.1 c.2.2 hc⟩) p.trackers
    (c := (p.effects, k, p.store)) (fun _ _ => trivial) hp).2
  unfold transaction Store.transact writeAll
  rcases h : sweep Tracker.write p.trackers (p.effects, k, p.store) with
    ⟨stop | _, trackers, effects, k', working⟩ <;>
    rw [show sweep Member.write _ _ = _ from h] at hsweep <;> exact hsweep

/-- Trackers that hear of a landed cycle or of released trackers report no failure. -/
theorem smooth_tell {n : Notice} (hn : n = .landed ∨ n = .released) (k : Ticket)
    (hp : p.Smooth) : (p.tell n k).2.Smooth :=
  smooth_ask (fun t _ h => Member.smooth_notice hn k t h) hp

/-- From the written transaction to the end of the cycle no failure is reported. -/
theorem smooth_settleLanded (newBase : Round) (k : Ticket) (hp : p.Smooth) :
    (p.settleLanded newBase k).2.2.Smooth := by
  have hlanded : (({ p with durable := newBase, flushed := true } : Pipeline (Member γ)).tell
      .landed { k with flushed := true }).2.Smooth := smooth_tell (.inl rfl) _ hp
  have hreleased := smooth_tell (.inr rfl) { k with flushed := true } hlanded
  obtain ⟨p₁, rfl, ⟨f, -, heq⟩ | ⟨-, p₂, rfl, ⟨f, -, heq⟩ | ⟨-, heq⟩⟩⟩ :=
    settleLanded_cases (q := p) newBase k <;> rw [heq]
  · exact hlanded
  · exact hreleased
  · exact smooth_log hreleased rfl

end Pipeline

end CommitPipeline
