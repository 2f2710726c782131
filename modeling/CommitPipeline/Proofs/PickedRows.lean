import CommitPipeline.Proofs.Frame
import CommitPipeline.Proofs.Moves

/-!
# Picked rows

A tail picks the rows of a range when it gets ready, and drops them when it hears how the cycle went
on. So between two operations no tail has rows picked, provided that nobody is cut short in between:
guests are asked not to be, and of a range in which a tail could be cut short no tail picks rows.

The module introduces:

* `Answers` — guests that may object and fail, but are not cut short in a cycle;
* `Member.Same` — the same tracker of the library, whatever the guests are;
* `Pipeline.Unstaged` — no tail has rows picked;
* `Pipeline.unstaged_runAll` — that is so before and after every move.
-/

namespace CommitPipeline

variable {γ : Type}

/-- Guests that may object to a range or fail to write it, but are not cut short in a cycle. -/
class Answers (γ : Type) [Guest γ] : Prop extends HearsOut γ where
  /-- Getting ready ends well or with an error. -/
  prepare_ne_fault : ∀ (g : γ) (k : Ticket) (f : Fault),
    (Guest.prepare (g, k)).1 ≠ .error (.fault f)
  /-- Writing ends well or with an error. -/
  write_ne_fault : ∀ (g : γ) (k : Ticket) (s : Store) (f : Fault),
    (Guest.write (g, k, s)).1 ≠ .error (.fault f)

namespace Member

/-- The same tracker of the library; of guests nothing is said. -/
abbrev Same (t u : Member γ) : Prop := Alike (fun _ _ => True) t u

/-- Trackers that nobody can tell apart are the same as far as the library goes. -/
theorem Alike.same {R : γ → γ → Prop} {t u : Member γ} (h : Alike R t u) : t.Same u := by
  cases h with
  | memory b => exact .memory b
  | durable b => exact .durable b
  | tail t => exact .tail t
  | guest _ => exact .guest trivial

theorem Same.refl (t : Member γ) : t.Same t := by
  cases t with
  | memory b => exact .memory b
  | durable b => exact .durable b
  | tail t => exact .tail t
  | guest g => exact .guest trivial

/-- What is the same but for guests stays so in a row. -/
theorem Same.trans {t u v : Member γ} (h : t.Same u) (h' : u.Same v) : t.Same v := by
  cases h with
  | memory b | durable b | tail t => exact h'
  | guest _ =>
    cases h' with
    | guest _ => exact .guest trivial

/-- The same, member by member. -/
theorem forall₂_same_trans {ts us vs : List (Member γ)} (h : List.Forall₂ Same ts us)
    (h' : List.Forall₂ Same us vs) : List.Forall₂ Same ts vs := by
  induction h generalizing vs with
  | nil => exact h'
  | cons htu _ ih =>
    cases h' with
    | cons huv hrest => exact .cons (htu.trans huv) (ih hrest)

/-- A tail has no rows picked. -/
def Unstaged : Member γ → Prop
  | tail t => t.staged = []
  | memory _ | durable _ | guest _ => True

/-- Of a tail that stayed the same the picked rows are the same too. -/
theorem Unstaged.of_same {t u : Member γ} (h : t.Same u) (ht : t.Unstaged) : u.Unstaged := by
  cases h with
  | memory b | durable b | tail t => exact ht
  | guest _ => trivial

/-- Steady changes of a tail are changes of its picked rows. -/
theorem same_of_steady {t u : Member γ} (h : t.Steady u) (ht : t.Unstaged) (hu : u.Unstaged) :
    t.Same u := by
  cases h with
  | memory b => exact .memory b
  | durable b => exact .durable b
  | guest g g' => exact .guest trivial
  | tail t staged =>
    have ht : t.staged = [] := ht
    have hu : staged = [] := hu
    rw [hu, ← ht]
    exact .tail t

/-- Without picked rows at either end, steady members are the same. -/
theorem forall₂_same_of_steady {ts us : List (Member γ)} (h : List.Forall₂ Steady ts us)
    (hts : ∀ t ∈ ts, t.Unstaged) (hus : ∀ u ∈ us, u.Unstaged) : List.Forall₂ Same ts us := by
  induction h with
  | nil => exact .nil
  | cons htu _ ih =>
    obtain ⟨ht, hts⟩ := List.forall_mem_cons.mp hts
    obtain ⟨hu, hus⟩ := List.forall_mem_cons.mp hus
    exact .cons (same_of_steady htu ht hu) (ih hts hus)

/-- The guests at one place are related, if there are any. -/
def GuestsRelated (R : γ → γ → Prop) (t u : Member γ) : Prop :=
  ∀ g h, t = guest g → u = guest h → R g h

/-- Members are alike as soon as they are the same and their guests are related. -/
theorem forall₂_alike {R : γ → γ → Prop} {ts us : List (Member γ)} (h : List.Forall₂ Same ts us)
    (hguests : List.Forall₂ (GuestsRelated R) ts us) : List.Forall₂ (Alike R) ts us := by
  induction h with
  | nil => exact .nil
  | cons htu _ ih =>
    cases hguests with
    | cons hhead hrest =>
      refine .cons ?_ (ih hrest)
      cases htu with
      | memory b => exact .memory b
      | durable b => exact .durable b
      | tail t => exact .tail t
      | guest _ => exact .guest (hhead _ _ rfl rfl)

variable [Guest γ]

/-- A question for needs changes guests at most. -/
theorem same_need (committed : Round) (t : Member γ) (fx : Effects) :
    t.Same (need committed (t, fx)).2.1 := by
  cases t with
  | memory b => exact .memory b
  | durable b => exact .durable b
  | tail t => exact .tail t
  | guest g => exact .guest trivial

/-- So does the narrowing of a range. -/
theorem same_refine (committed round : Round) (range : CommitRange) (t : Member γ)
    (fx : Effects) : t.Same (refine committed round range (t, fx)).2.1 := by
  cases t with
  | memory b => exact .memory b
  | durable b => exact .durable b
  | tail t => exact .tail t
  | guest g => exact .guest trivial

/-- A tail writes the rows it picked and keeps them until the end of the cycle. -/
theorem same_write (t : Member γ) (fx : Effects) (k : Ticket) (s : Store) :
    t.Same (write (t, fx, k, s)).2.1 := by
  cases t with
  | memory b => exact .memory b
  | durable b => exact .durable b
  | tail t =>
    rcases h : t.writeStaged k.range s with ⟨stop | pruned, s'⟩ <;> simp only [write, h] <;>
      exact .tail t
  | guest g => exact .guest trivial

/-! ## Picked rows -/

/-- A tail starts from a store without picked rows, or it stays as it was. -/
theorem unstaged_load (ledger : LedgerView) (s : Store) (r : Round) (t : Member γ) (fx : Effects)
    (ht : t.Unstaged) : (load ledger s r (t, fx)).2.1.Unstaged := by
  cases t with
  | memory b => trivial
  | durable b => trivial
  | guest g => trivial
  | tail t =>
    cases h : t.reload s r with
    | error stop => simpa only [load, h] using ht
    | ok t' =>
      simp only [load, h]
      obtain ⟨_, _, -, rfl, -⟩ := Tail.of_reload_eq_ok h
      rfl

/-- Blocks go into the window of a tail, not among the picked rows. -/
theorem unstaged_newBlock (block : Block) (delta : Delta) (t : Member γ) (fx : Effects)
    (ht : t.Unstaged) : (newBlock block delta (t, fx)).2.1.Unstaged := by
  cases t with
  | memory b => trivial
  | durable b => trivial
  | tail t => exact ht
  | guest g => trivial

/-- Closing leaves no picked rows. -/
theorem unstaged_close (t : Member γ) (fx : Effects) : (close (t, fx)).2.1.Unstaged := by
  cases t with
  | memory b => trivial
  | durable b => trivial
  | tail t => rfl
  | guest g => trivial

/-- No notice makes a tail pick rows. -/
theorem unstaged_notice (n : Notice) (k : Ticket) (t : Member γ) (fx : Effects)
    (ht : t.Unstaged) : (notice n k (t, fx)).2.1.Unstaged := by
  cases t with
  | memory b => trivial
  | durable b => cases n <;> trivial
  | guest g => trivial
  | tail t =>
    cases n with
    | landed =>
      cases h : t.advance k.range with
      | error f => simpa only [notice, h] using ht
      | ok t' =>
        obtain ⟨_, _, _, _, rfl⟩ := Tail.advance_eq_ok_iff.mp h
        simp only [notice, h]
        rfl
    | prepareFailed | writeFailed => rfl
    | released | outOfOrder => exact ht

/-- Of a range in which a tail could be cut short no tail picks rows. -/
theorem unstaged_prepare {k : Ticket} (hk : ¬Tail.Stageable k.range) (t : Member γ) (fx : Effects)
    (ht : t.Unstaged) : (prepare (t, fx, k)).2.1.Unstaged := by
  cases t with
  | memory b => trivial
  | durable b => trivial
  | guest g => trivial
  | tail t =>
    cases h : t.stage k.range with
    | error stop => simpa only [prepare, h] using ht
    | ok t' => exact absurd (Tail.stageable_of_stage h) hk

/-- To hear of a failure is to drop the picked rows. -/
theorem failed_ok [HearsOut γ] {n : Notice} (hn : n = .prepareFailed ∨ n = .writeFailed)
    (k : Ticket) (t : Member γ) (fx : Effects) :
    (notice n k (t, fx)).1 = .ok () ∧ (notice n k (t, fx)).2.1.Unstaged := by
  cases t with
  | memory b => exact ⟨rfl, trivial⟩
  | durable b => rcases hn with rfl | rfl <;> exact ⟨rfl, trivial⟩
  | tail t => rcases hn with rfl | rfl <;> exact ⟨rfl, rfl⟩
  | guest g => exact ⟨HearsOut.notice_ok n k g, trivial⟩

/-- To hear that a range has landed that could be picked is to drop the picked rows. -/
theorem landed_unstaged [HearsOut γ] {k : Ticket} (hk : Tail.Stageable k.range) (t : Member γ)
    (fx : Effects) :
    (notice .landed k (t, fx)).1 = .ok () ∧ (notice .landed k (t, fx)).2.1.Unstaged := by
  cases t with
  | memory b => exact ⟨rfl, trivial⟩
  | durable b => exact ⟨rfl, trivial⟩
  | guest g => exact ⟨HearsOut.notice_ok .landed k g, trivial⟩
  | tail t =>
    obtain ⟨t', hadvance, hstaged⟩ := Tail.exists_advance (t := t) hk
    simp only [notice, hadvance]
    exact ⟨trivial, hstaged⟩

/-- A fault in the preparation comes from the range, which is too long for a tail or ends outside of
the word. -/
theorem fault_of_prepare [Answers γ] {k : Ticket} {f : Fault} {t : Member γ} {fx : Effects}
    (h : (prepare (t, fx, k)).1 = .error (.fault f)) : Tail.CutsShort k.range f := by
  cases t with
  | memory b => cases h
  | durable b => cases h
  | guest g => exact absurd h (Answers.prepare_ne_fault g k f)
  | tail t =>
    cases hstage : t.stage k.range with
    | ok t' => simp [prepare, hstage] at h
    | error stop =>
      simp only [prepare, hstage, Except.error.injEq] at h
      exact Tail.fault_of_stage (h ▸ hstage)

/-- So does a fault in a transaction. -/
theorem fault_of_write [Answers γ] {k : Ticket} {f : Fault} {t : Member γ} {fx : Effects}
    {s : Store} (h : (write (t, fx, k, s)).1 = .error (.fault f)) : Tail.CutsShort k.range f := by
  cases t with
  | memory b => cases h
  | durable b => cases h
  | guest g => exact absurd h (Answers.write_ne_fault g k s f)
  | tail t =>
    rcases hstaged : t.writeStaged k.range s with ⟨stop | pruned, s'⟩
    · simp only [write, hstaged, Except.error.injEq] at h
      exact Tail.fault_of_writeStaged (h ▸ congrArg Prod.fst hstaged)
    · simp [write, hstaged] at h

end Member

namespace Pipeline

/-- No tail has rows picked. -/
def Unstaged (p : Pipeline (Member γ)) : Prop := ∀ t ∈ p.trackers, t.Unstaged

variable {p q : Pipeline (Member γ)}

/-- A question after which no member has rows picked leaves no picked rows at all. -/
theorem unstaged_ask {ε : Type} {a : Act ε (Member γ × Effects) Unit}
    (ha : ∀ t fx, t.Unstaged → (a (t, fx)).2.1.Unstaged) (hp : p.Unstaged) :
    (p.ask a).2.Unstaged :=
  (ask_forall (I := fun _ => True) (fun t fx ht _ => ⟨ha t fx ht, trivial⟩) hp trivial).1

/-- Trackers that are the same but for guests have no rows picked either. -/
theorem Unstaged.of_same (h : List.Forall₂ Member.Same p.trackers q.trackers) (hp : p.Unstaged) :
    q.Unstaged := by
  unfold Unstaged at hp ⊢
  generalize p.trackers = ts at h hp
  generalize q.trackers = us at h
  induction h with
  | nil => exact hp
  | cons htu _ ih =>
    obtain ⟨ht, hrest⟩ := List.forall_mem_cons.mp hp
    exact List.forall_mem_cons.mpr ⟨.of_same htu ht, ih hrest⟩

/-- To wait does not pick rows. -/
theorem unstaged_waitAt (place : Nat) (r : Round) (hp : p.Unstaged) :
    (p.waitAt place r).Unstaged := by
  refine forall_waitAt ?_ place r hp
  intro t r board ht
  cases t with
  | memory b | durable b => trivial
  | tail t => exact ht
  | guest g => trivial

variable [Guest γ]

/-- Trackers that are told how a cycle goes on do not pick rows. -/
theorem unstaged_tell (n : Notice) (k : Ticket) (hp : p.Unstaged) : (p.tell n k).2.Unstaged :=
  unstaged_ask (Member.unstaged_notice n k) hp

/-- A load leaves no picked rows if there were none. -/
theorem unstaged_load (ledger : LedgerView) (hp : p.Unstaged) : (p.load ledger).2.Unstaged :=
  (load_forall (I := fun _ => True)
    (fun t fx ht _ => ⟨Member.unstaged_load ledger p.store _ t fx ht, trivial⟩)
    (fun block delta t fx ht _ => ⟨Member.unstaged_newBlock block delta t fx ht, trivial⟩)
    hp trivial).1

/-! ## Negotiations -/

/-- One step of the question for needs, with the needs found so far beside the effects. -/
theorem same_needOne (committed : Round) (t : Member γ) (c : Effects × Need) :
    t.Same (needOne committed (t, c)).2.1 := by
  obtain ⟨fx, joint⟩ := c
  have hneed : t.Same (Tracker.need committed (t, fx)).2.1 := Member.same_need committed t fx
  rcases h : Tracker.need committed (t, fx) with ⟨_ | _, t', fx'⟩ <;>
    rw [h] at hneed <;> simp only [needOne, h] <;> exact hneed

/-- One step of the narrowing, with the range so far beside the effects. -/
theorem same_refineOne (committed durable : Round) (t : Member γ) (c : Effects × CommitRange) :
    t.Same (refineOne committed durable (t, c)).2.1 := by
  obtain ⟨fx, range⟩ := c
  have hrefine : t.Same (Tracker.refine committed durable range (t, fx)).2.1 :=
    Member.same_refine committed durable range t fx
  rcases h : Tracker.refine committed durable range (t, fx) with ⟨_ | _ | _, t', fx'⟩ <;>
    rw [h] at hrefine <;> simp only [refineOne, h] <;> exact hrefine

/-- A negotiation leaves the trackers of the library as they are. -/
theorem same_negotiate (committed : Round) (lookback : UInt64) :
    List.Forall₂ Member.Same p.trackers (p.negotiate committed lookback).2.trackers := by
  have hrefine : List.Forall₂ Member.Same p.trackers
      (p.refineAll committed (p.propose committed lookback)).2.trackers :=
    (sweep_forall₂ (I := fun _ => True) Member.Same.refl
      (fun t c _ => ⟨same_refineOne committed p.durable t c, trivial⟩) p.trackers trivial).1
  unfold negotiate
  simp only
  split
  · exact List.forall₂_same.mpr fun t _ => .refl t
  rcases h : p.refineAll committed (p.propose committed lookback) with
    ⟨(tracker | f) | range, q⟩ <;> rw [h] at hrefine
  · exact hrefine
  · exact hrefine
  · unfold conclude
    simp only
    split
    · exact hrefine
    · split <;> exact hrefine

/-- A negotiation that a caller asks for changes guests at most. -/
theorem same_schedule (committed : Round) (lookback : UInt64) :
    List.Forall₂ Member.Same p.trackers (p.schedule committed lookback).2.trackers := by
  unfold schedule claimMark
  split
  · exact List.forall₂_same.mpr fun t _ => .refl t
  · next q h =>
    split at h <;> cases h
    exact same_negotiate (p := { p with inFlight := true }) committed lookback

/-- A ticket goes into the queue without the trackers. -/
theorem trackers_dispatch {τ : Type} (k : Ticket) (p : Pipeline τ) :
    (p.dispatch k).trackers = p.trackers := by
  unfold dispatch enqueue
  split
  · next h =>
    split at h
    · cases h
    all_goals
      split at h <;> cases h
      rfl
  · rfl

/-- A report changes guests at most. -/
theorem same_report (round : Round) :
    List.Forall₂ Member.Same p.trackers (p.report round).2.trackers := by
  have hneed : List.Forall₂ Member.Same p.trackers
      ((p.remember round).needAll round).2.trackers :=
    (sweep_forall₂ (I := fun _ => True) Member.Same.refl
      (fun t c _ => ⟨same_needOne round t c, trivial⟩) p.trackers trivial).1
  refine report_preserves (I := fun q => List.Forall₂ Member.Same p.trackers q.trackers) hneed
    (fun q lookback h => Member.forall₂_same_trans h (same_schedule round lookback))
    fun q k h => ?_
  rw [trackers_dispatch]
  exact h

/-- The worker's look for more to do changes guests at most. -/
theorem same_complete (handled : Round) :
    List.Forall₂ Member.Same p.trackers (p.complete handled).2.trackers := by
  obtain ⟨-, heq⟩ | ⟨-, result, q, hreport, heq⟩ := complete_cases handled p <;> rw [heq]
  · exact List.forall₂_same.mpr fun t _ => .refl t
  · have hsame := same_report (p := p.clearMark.log (.followUp handled p.reported)) p.reported
    rw [hreport] at hsame
    exact hsame

/-! ## Cycles -/

/-- A transaction leaves the trackers of the library as they are. -/
theorem same_transaction (newBase : Round) (k : Ticket) :
    List.Forall₂ Member.Same p.trackers (p.transaction newBase k).2.2.trackers := by
  have hwritten : List.Forall₂ Member.Same p.trackers
      (sweep Tracker.write p.trackers (p.effects, k, p.store)).2.1 :=
    (sweep_forall₂ (I := fun _ => True) Member.Same.refl
      (fun t c _ => ⟨Member.same_write t c.1 c.2.1 c.2.2, trivial⟩) p.trackers trivial).1
  unfold transaction Store.transact writeAll
  rcases h : sweep Tracker.write p.trackers (p.effects, k, p.store) with
    ⟨stop | _, trackers, effects, k', working⟩ <;> rw [h] at hwritten <;> exact hwritten

/-- Whatever was picked is dropped when the trackers hear of a failure. -/
theorem unstaged_failWith [HearsOut γ] {n : Notice} (hn : n = .prepareFailed ∨ n = .writeFailed)
    (e : PipelineError) (k : Ticket) : (p.failWith n e k).2.2.Unstaged := by
  have htell : (p.tell n k).2.Unstaged :=
    (sweep_of_forall_ok (G := fun _ => True) (fun t fx _ => Member.failed_ok hn k t fx) p.trackers
      p.effects fun _ _ => trivial).2
  unfold failWith
  rcases h : p.tell n k with ⟨f | _, q⟩ <;> rw [h] at htell <;> exact htell

/-- A skipped cycle asks no tail to get ready. -/
theorem unstaged_skipPhase (k : Ticket) (hp : p.Unstaged) : (p.skipPhase k).2.2.Unstaged := by
  have htell := unstaged_tell (p := p.log (.outOfOrder p.durable)) .outOfOrder k hp
  unfold skipPhase
  rcases h : (p.log (.outOfOrder p.durable)).tell .outOfOrder k with ⟨f | _, q⟩ <;>
    rw [h] at htell <;> exact htell

/-- After a transaction nothing is picked any more, if nothing was or if the range is one of those
in which no tail is cut short. -/
theorem unstaged_settleLanded [HearsOut γ] {k : Ticket} (newBase : Round)
    (h : p.Unstaged ∨ Tail.Stageable k.range) : (p.settleLanded newBase k).2.2.Unstaged := by
  have hlanded : (({ p with durable := newBase, flushed := true } : Pipeline (Member γ)).tell
      .landed { k with flushed := true }).2.Unstaged := by
    rcases h with hp | hk
    · exact unstaged_tell .landed _ hp
    · exact (sweep_of_forall_ok (G := fun _ => True)
        (fun t fx _ => Member.landed_unstaged (k := { k with flushed := true }) hk t fx) p.trackers
        p.effects fun _ _ => trivial).2
  obtain ⟨p₁, rfl, ⟨f, -, heq⟩ | ⟨-, p₂, rfl, ⟨f, -, heq⟩ | ⟨-, heq⟩⟩⟩ :=
    settleLanded_cases (q := p) newBase k <;> rw [heq]
  · exact hlanded
  · exact unstaged_tell .released _ hlanded
  · exact unstaged_tell .released _ hlanded

section Answering

variable [KeepsRange γ] [Answers γ] {k : Ticket}

/-- All trackers together are cut short in getting ready only where a tail is. -/
theorem fault_of_prepareAll {f : Fault} (h : (p.prepareAll k).1 = .error (.fault f)) :
    Tail.CutsShort k.range f := by
  refine sweep_error_of_forall (E := fun stop => ∀ f, stop = .fault f → Tail.CutsShort k.range f)
    (I := fun c : Effects × Ticket => c.2.range = k.range) ?_ p.trackers rfl _ h f rfl
  intro t c hrange
  refine ⟨?_, (Member.range_prepare t c.1 c.2).trans hrange⟩
  rintro _ hstop f rfl
  exact hrange ▸ Member.fault_of_prepare hstop

/-- All trackers together are cut short in writing only where a tail is. -/
theorem fault_of_transaction {newBase : Round} {f : Fault}
    (h : (p.transaction newBase k).1 = .error (.fault f)) : Tail.CutsShort k.range f := by
  have hsweep : ∀ stop, (sweep Tracker.write p.trackers (p.effects, k, p.store)).1 = .error stop →
      ∀ f, stop = .fault f → Tail.CutsShort k.range f := by
    refine sweep_error_of_forall (I := fun c : Effects × Ticket × Store => c.2.1.range = k.range)
      ?_ p.trackers rfl
    intro t c hrange
    refine ⟨?_, (Member.range_write t c.1 c.2.1 c.2.2).trans hrange⟩
    rintro _ hstop f rfl
    exact hrange ▸ Member.fault_of_write hstop
  unfold transaction Store.transact writeAll at h
  rcases hwritten : sweep Tracker.write p.trackers (p.effects, k, p.store) with
    ⟨stop | _, trackers, effects, k', working⟩ <;> rw [hwritten] at hsweep h <;> cases h
  exact hsweep _ rfl f rfl

/-- From the transaction on, picked rows are gone at the end of a cycle unless the range cuts tails
short. -/
theorem unstaged_writePhase (h : p.Unstaged ∨ Tail.Stageable k.range) :
    (p.writePhase k).2.2.Unstaged := by
  unfold writePhase
  cases hnew : k.newBase with
  | error f =>
    -- A range that tails can stage has an end in the word.
    rcases h with hp | ⟨hlimit, -⟩
    · exact hp
    · have := (Round.plus_eq_error_iff.mp hnew).2
      omega
  | ok newBase =>
    have hrange := range_transaction (p := p) newBase k
    have hfault : ∀ f, (p.transaction newBase k).1 = .error (.fault f) →
        Tail.CutsShort k.range f := fun f => fault_of_transaction
    have hq : (p.transaction newBase k).2.2.Unstaged ∨
        Tail.Stageable (p.transaction newBase k).2.1.range := by
      rw [hrange]
      exact h.imp_left fun hp => hp.of_same (same_transaction newBase k)
    rw [← hrange] at hfault
    simp only
    rcases hresult : p.transaction newBase k with ⟨(e | f) | _, k', q⟩ <;>
      rw [hresult] at hq hfault
    · exact unstaged_failWith (.inr rfl) e k'
    · -- A fault would come from a range that cuts tails short.
      exact hq.elim id fun hk => absurd (hfault f rfl) (hk.not_cutsShort f)
    · exact unstaged_settleLanded newBase hq

/-- The same from the preparation on: where it fails, all tails drop their rows. -/
theorem unstaged_preparePhase (hp : p.Unstaged) : (p.preparePhase k).2.2.Unstaged := by
  have hrange := range_prepareAll (p := p) k
  have hfault : ∀ f, (p.prepareAll k).1 = .error (.fault f) → Tail.CutsShort k.range f :=
    fun f => fault_of_prepareAll
  -- Either no tail picks anything, or nobody is cut short.
  have hprepared : (p.prepareAll k).2.2.Unstaged ∨ Tail.Stageable (p.prepareAll k).2.1.range := by
    rw [hrange]
    by_cases hk : Tail.Stageable k.range
    · exact .inr hk
    · exact .inl (sweep_forall (I := fun c : Effects × Ticket => c.2.range = k.range)
        (fun t c ht hc => ⟨Member.unstaged_prepare (by rw [hc]; exact hk) t c.1 ht,
          (Member.range_prepare t c.1 c.2).trans hc⟩) p.trackers hp rfl).1
  rw [← hrange] at hfault
  unfold preparePhase
  rcases hresult : p.prepareAll k with ⟨(e | f) | _, k', q⟩ <;> rw [hresult] at hprepared hfault
  · exact unstaged_failWith (.inl rfl) e k'
  · exact hprepared.elim id fun hk => absurd (hfault f rfl) (hk.not_cutsShort f)
  · exact unstaged_writePhase hprepared

/-- However a cycle ends, nothing is picked behind it. -/
theorem unstaged_runCycle (k : Ticket) (hp : p.Unstaged) : (p.runCycle k).2.2.Unstaged := by
  unfold runCycle
  simp only
  split
  · exact hp
  split
  · exact unstaged_skipPhase k hp
  · exact unstaged_preparePhase (p := p.log _) hp

/-- The holder of a ticket leaves no picked rows behind. -/
theorem unstaged_commit (k : Ticket) (hp : p.Unstaged) : (p.commit k).2.2.Unstaged := by
  obtain ⟨-, -, ⟨heq, -⟩ | heq⟩ := commit_eq k p <;> rw [heq] <;> exact unstaged_runCycle k hp

/-- Nor do retries, by induction on those that are left. -/
theorem unstaged_retryHalving (retries attempt : Nat) (k : Ticket) (hp : p.Unstaged) :
    (p.retryHalving retries attempt k).2.2.Unstaged := by
  induction retries generalizing attempt k p with
  | zero => exact unstaged_runCycle k hp
  | succ retries ih =>
    have hcycle := unstaged_runCycle k hp
    unfold retryHalving
    split
    · next heq =>
      rw [heq] at hcycle
      split
      · exact ih _ _ hcycle
      · exact hcycle
    · exact hcycle

end Answering

end Pipeline

/-! ## Moves -/

section Moves

variable [Guest γ] [KeepsRange γ] [Answers γ] {p : Pipeline (Member γ)}

open Pipeline

/-- No request leaves picked rows behind. -/
theorem Request.unstaged_run (request : Request) (hp : p.Unstaged) : (request.run p).Unstaged := by
  cases request with
  | report round => exact hp.of_same (same_report round)
  | schedule committed lookback => exact hp.of_same (same_schedule committed lookback)
  | commit k => exact unstaged_commit k hp
  | startWorker =>
    rw [run]
    unfold Pipeline.startWorker
    cases p.intake <;> exact hp
  | takeTicket =>
    rw [run]
    split
    · next h =>
      unfold Pipeline.takeTicket at h
      split at h <;> cases h
      exact hp
    · exact hp
  | work k => exact unstaged_retryHalving _ 0 k hp
  | complete handled =>
    have hcomplete := hp.of_same (same_complete handled)
    rw [run]
    rcases h : p.complete handled with ⟨f | _, q⟩ <;> rw [h] at hcomplete <;> exact hcomplete
  | retire => exact hp

/-- No operation does, a load that fails included. -/
theorem Operation.unstaged_run (operation : Operation) (hp : p.Unstaged) :
    (operation.run p).Unstaged := by
  cases operation with
  | load ledger => exact unstaged_load ledger hp
  | newBlock block delta => exact unstaged_ask (Member.unstaged_newBlock block delta) hp
  | request r => exact r.unstaged_run hp
  | close =>
    have hask : (p.ask Tracker.close).2.Unstaged :=
      unstaged_ask (fun t fx _ => Member.unstaged_close t fx) hp
    rw [run]
    rcases close_cases p with heq | heq <;> rw [heq] <;> exact hask

/-- Between any two moves no tail has rows picked. -/
theorem Pipeline.unstaged_runAll (moves : List Move) (hp : p.Unstaged) :
    (Move.runAll moves p).Unstaged := by
  induction moves generalizing p with
  | nil => exact hp
  | cons move rest ih =>
    cases move with
    | operate operation => exact ih (operation.unstaged_run hp)
    | wait place r => exact ih (unstaged_waitAt place r hp)

end Moves

end CommitPipeline
