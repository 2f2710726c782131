import CommitPipeline.Proofs.DurableRound
import CommitPipeline.Proofs.Tame
import Mathlib.Data.List.Count

/-!
# Pipelines over the library's own trackers

A pipeline without guests, over one memory bulletin, one durable bulletin and one block tail in any
order. No operation changes which trackers a pipeline has, or how many rounds its tail retains.

The module introduces:

* `Own` — trackers of which none is a guest;
* `Kind`, `Pipeline.kinds` — what sort of tracker stands where;
* `Crew` — one memory bulletin, one durable bulletin and one tail;
* `Around` — where the tail of a crew stands, with a lemma on sweeps in which bulletins do nothing;
* `Operation.kinds_run` — no operation changes the kinds.
-/

namespace CommitPipeline

/-- There are no guests of this type. -/
instance : Guest Empty where
  name := nofun
  load _ _ _ := nofun
  newBlock _ _ := nofun
  need _ := nofun
  refine _ _ _ := nofun
  prepare := nofun
  write := nofun
  notice _ _ := nofun
  close := nofun

instance : KeepsRange Empty := ⟨nofun, nofun⟩

instance : HearsOut Empty := ⟨fun _ _ => nofun⟩

/-- A tracker of the library. -/
abbrev Own := Member Empty

/-- What sort of tracker a member is. -/
inductive Kind where
  | memory
  | durable
  | tail (retain : UInt64)
  | guest
  deriving DecidableEq, Repr

namespace Member

variable {γ : Type}

/-- What sort of tracker a member is; of a tail it says how many rounds it retains. -/
def kind : Member γ → Kind
  | memory _ => .memory
  | durable _ => .durable
  | tail t => .tail t.retain
  | guest _ => .guest

/-- A steady member is of the same kind. -/
theorem Steady.kind {t u : Member γ} (h : t.Steady u) : u.kind = t.kind := by
  cases h <;> rfl

variable [Guest γ]

/-- A load does not turn one sort of tracker into another, nor does it change how much a tail
retains. -/
theorem kind_load (ledger : LedgerView) (s : Store) (r : Round) (t : Member γ) (fx : Effects) :
    (load ledger s r (t, fx)).2.1.kind = t.kind := by
  cases t with
  | memory b => rfl
  | durable b => rfl
  | tail t =>
    cases h : t.reload s r with
    | error stop => simp only [load, h]
    | ok t' =>
      simp only [load, h]
      obtain ⟨_, _, -, rfl, -⟩ := Tail.of_reload_eq_ok h
      rfl
  | guest g => rfl

/-- Nor does a block. -/
theorem kind_newBlock (block : Block) (delta : Delta) (t : Member γ) (fx : Effects) :
    (newBlock block delta (t, fx)).2.1.kind = t.kind := by
  cases t <;> rfl

/-- Nor does a notice. -/
theorem kind_notice (n : Notice) (k : Ticket) (t : Member γ) (fx : Effects) :
    (notice n k (t, fx)).2.1.kind = t.kind := by
  cases t with
  | memory b => rfl
  | durable b => cases n <;> rfl
  | tail t =>
    cases n with
    | landed =>
      cases h : t.advance k.range with
      | error f => simp only [notice, h]
      | ok t' =>
        obtain ⟨_, _, _, _, rfl⟩ := Tail.advance_eq_ok_iff.mp h
        simp only [notice, h]
        rfl
    | released | outOfOrder | prepareFailed | writeFailed => rfl
  | guest g => rfl

theorem kind_close (t : Member γ) (fx : Effects) : (close (t, fx)).2.1.kind = t.kind := by
  cases t <;> rfl

end Member

namespace Pipeline

variable {γ : Type} {p q : Pipeline (Member γ)}

/-- What sort of tracker stands where. -/
def kinds (p : Pipeline (Member γ)) : List Kind := p.trackers.map Member.kind

private theorem map_kind_eq {ts us : List (Member γ)}
    (h : List.Forall₂ (fun t u : Member γ => u.kind = t.kind) ts us) :
    us.map Member.kind = ts.map Member.kind := by
  induction h with
  | nil => rfl
  | cons htu _ ih => rw [List.map_cons, List.map_cons, htu, ih]

/-- Kinds are the same after anything steady. -/
theorem kinds_of_steady (h : p.Steady q) : q.kinds = p.kinds :=
  map_kind_eq (h.trackers.imp fun _ _ hsteady => hsteady.kind)

/-- Kinds are the same after a question that leaves each member's kind alone. -/
theorem kinds_ask {ε : Type} {a : Act ε (Member γ × Effects) Unit}
    (h : ∀ t fx, (a (t, fx)).2.1.kind = t.kind) : (p.ask a).2.kinds = p.kinds :=
  map_kind_eq (sweep_forall₂ (R := fun t u : Member γ => u.kind = t.kind) (I := fun _ => True)
    (fun _ => rfl) (fun t fx _ => ⟨h t fx, trivial⟩) p.trackers trivial).1

variable [Guest γ]

/-- Kinds are the same after a load, whatever comes of it. -/
theorem kinds_load (ledger : LedgerView) (p : Pipeline (Member γ)) :
    (p.load ledger).2.kinds = p.kinds := by
  refine load_preserves (I := fun q : Pipeline (Member γ) => q.kinds = p.kinds) rfl
    (kinds_ask (Member.kind_load ledger p.store p.store.round)) ?_ ?_ ?_
  · intro _ _ h
    exact h
  · intro _ block delta h
    exact (kinds_ask (Member.kind_newBlock block delta)).trans h
  · intro _ _ h
    exact h

/-- Kinds are the same after a cycle has landed. -/
theorem kinds_settleLanded (newBase : Round) (k : Ticket) (q : Pipeline (Member γ)) :
    (q.settleLanded newBase k).2.2.kinds = q.kinds := by
  have htell : ∀ (n : Notice) (k : Ticket) (p : Pipeline (Member γ)),
      (p.tell n k).2.kinds = p.kinds :=
    fun n k p => kinds_ask (Member.kind_notice n k)
  obtain ⟨p₁, rfl, ⟨f, -, heq⟩ | ⟨-, p₂, rfl, ⟨f, -, heq⟩ | ⟨-, heq⟩⟩⟩ :=
    settleLanded_cases (q := q) newBase k <;> rw [heq]
  · exact htell _ _ _
  · exact (htell _ _ _).trans (htell _ _ _)
  · exact (htell _ _ _).trans (htell _ _ _)

end Pipeline

/-- No operation changes which trackers a pipeline has. -/
theorem Operation.kinds_run {γ : Type} [Guest γ] [KeepsRange γ] (operation : Operation)
    (p : Pipeline (Member γ)) : (operation.run p).kinds = p.kinds := by
  cases operation with
  | load ledger => exact Pipeline.kinds_load ledger p
  | newBlock block delta => exact Pipeline.kinds_ask (Member.kind_newBlock block delta)
  | close =>
    have hask : (p.ask Tracker.close).2.kinds = p.kinds := Pipeline.kinds_ask Member.kind_close
    rw [run]
    rcases Pipeline.close_cases p with heq | heq <;> rw [heq] <;> exact hask
  | request request =>
    refine request.run_preserves (I := fun q => q.kinds = p.kinds) ?_ ?_ rfl
    · exact fun hsteady h => (Pipeline.kinds_of_steady hsteady).trans h
    · intro p₀ k newBase k' q h hwrites
      have hwritten := Pipeline.kinds_of_steady hwrites.steady
      exact (Pipeline.kinds_settleLanded newBase k' q).trans (hwritten.trans h)

/-! ## Crews -/

/-- A bulletin of either sort. -/
inductive Member.IsBulletin : Own → Prop
  | memory (b : Bulletin) : IsBulletin (.memory b)
  | durable (b : Bulletin) : IsBulletin (.durable b)

/-- Among the trackers stands a tail, with bulletins before and after it. -/
structure Around (trackers before : List Own) (u : Tail) (after : List Own) : Prop where
  split : trackers = before ++ .tail u :: after
  others : ∀ t ∈ before ++ after, t.IsBulletin

namespace Around

variable {κ ε : Type} {ask : Act ε (Own × κ) Unit} {I : κ → Prop} {c c' : κ}
  {trackers before after : List Own} {u u' : Tail}

/-- The tail is one of the trackers. -/
theorem mem (h : Around trackers before u after) : .tail u ∈ trackers := by
  rw [h.split]
  exact List.mem_append_right _ List.mem_cons_self

/-- If bulletins do nothing, a sweep is what the tail does. -/
theorem sweep_of_ok (h : Around trackers before u after)
    (hidle : ∀ t : Own, t.IsBulletin → ∀ c, I c → ask (t, c) = (.ok (), t, c)) (hc : I c)
    (hc' : I c') (htail : ask (.tail u, c) = (.ok (), .tail u', c')) :
    sweep ask trackers c = (.ok (), before ++ .tail u' :: after, c') := by
  rw [h.split]
  exact sweep_around_of_ok (fun t ht => hidle t (h.others t ht)) hc hc' htail

/-- If bulletins do nothing, a sweep ends where the tail stops. -/
theorem sweep_of_error {e : ε} (h : Around trackers before u after)
    (hidle : ∀ t : Own, t.IsBulletin → ∀ c, I c → ask (t, c) = (.ok (), t, c)) (hc : I c)
    (htail : ask (.tail u, c) = (.error e, .tail u, c')) :
    sweep ask trackers c = (.error e, before ++ .tail u :: after, c') := by
  rw [h.split]
  exact sweep_around_of_error (fun t ht => hidle t (h.others t ht)) hc htail

end Around

/-- One memory bulletin, one durable bulletin and one tail that retains so many rounds, in any
order. -/
def Crew (retain : UInt64) (kinds : List Kind) : Prop :=
  kinds.Perm [.tail retain, .memory, .durable]

namespace Crew

variable {retain : UInt64} {trackers : List Own}

/-- Whichever tail belongs to a crew, it retains that many rounds. -/
theorem retain_eq (h : Crew retain (trackers.map Member.kind)) {u : Tail}
    (hu : .tail u ∈ trackers) : u.retain = retain := by
  have hkind := h.mem_iff.mp (List.mem_map_of_mem hu)
  simpa [Member.kind] using hkind

/-- A crew has its tail somewhere, with bulletins before and after it. -/
theorem exists_around (h : Crew retain (trackers.map Member.kind)) :
    ∃ before u after, Around trackers before u after ∧ u.retain = retain := by
  have hmem : Kind.tail retain ∈ trackers.map Member.kind := h.mem_iff.mpr (by simp)
  obtain ⟨t, ht, hkind⟩ := List.mem_map.mp hmem
  obtain ⟨before, after, rfl⟩ := List.append_of_mem ht
  -- Without the tail two kinds are left, and both are kinds of bulletins.
  have hothers : ((before ++ after).map Member.kind).Perm [.memory, .durable] := by
    rw [Crew, List.map_append, List.map_cons, hkind] at h
    rw [List.map_append]
    exact (List.perm_middle.symm.trans h).cons_inv
  cases t with
  | memory b => cases hkind
  | durable b => cases hkind
  | guest g => exact g.elim
  | tail u =>
    refine ⟨before, u, after, ⟨rfl, fun t ht => ?_⟩, by simpa [Member.kind] using hkind⟩
    have hother := hothers.mem_iff.mp (List.mem_map_of_mem ht)
    cases t with
    | memory b => exact .memory b
    | durable b => exact .durable b
    | tail u' => simp [Member.kind] at hother
    | guest g => exact g.elim

/-- A crew retains at least one round, as every tail does. -/
theorem retain_pos (h : Crew retain (trackers.map Member.kind)) : 0 < retain.toNat := by
  obtain ⟨-, u, -, -, rfl⟩ := h.exists_around
  exact u.toNat_retain_pos

end Crew

end CommitPipeline
