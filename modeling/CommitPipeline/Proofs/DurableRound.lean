import CommitPipeline.Proofs.Loading
import CommitPipeline.Proofs.Operation

/-!
# The durable round

A loaded pipeline is at the durable round that its store has, and no durable bulletin has announced
a round above it. The stored round never falls.

The module introduces:

* `Pipeline.Current` — the invariant, which holds of an opened pipeline;
* `Pipeline.Advances` — what any run does to a pipeline that is current.
-/

namespace CommitPipeline

variable {γ : Type}

namespace Member

/-- A durable bulletin has announced no round above a given one. -/
def Within (r : Round) : Member γ → Prop
  | durable b => b.latest ≤ r
  | memory _ | tail _ | guest _ => True

/-- A bound on what was announced may be raised. -/
theorem Within.mono {r s : Round} (hle : r ≤ s) {t : Member γ} (h : t.Within r) : t.Within s := by
  cases t with
  | durable b => exact Nat.le_trans h hle
  | memory b => trivial
  | tail t => trivial
  | guest g => trivial

/-- It depends on the bulletin alone. -/
theorem Within.of_sameBoards {r : Round} {t u : Member γ} (hsame : t.SameBoards u)
    (h : t.Within r) : u.Within r := by
  cases hsame with
  | durable b => exact h
  | memory b => trivial
  | tail t t' => trivial
  | guest g g' => trivial

variable [Guest γ]

/-- A durable bulletin starts at the durable round of the store. -/
theorem within_load (ledger : LedgerView) (s : Store) (r : Round) (t : Member γ) (fx : Effects) :
    (load ledger s r (t, fx)).2.1.Within r := by
  cases t with
  | durable b => exact Nat.le_refl _
  | memory b => trivial
  | tail t => cases hreload : t.reload s r <;> simp only [load, hreload] <;> trivial
  | guest g => trivial

/-- Blocks are announced by memory bulletins only. -/
theorem within_newBlock {r : Round} (block : Block) (delta : Delta) (t : Member γ) (fx : Effects)
    (h : t.Within r) : (newBlock block delta (t, fx)).2.1.Within r := by
  cases t with
  | durable b => exact h
  | memory b => trivial
  | tail t => trivial
  | guest g => trivial

/-- A durable bulletin announces the new durable round and no other. -/
theorem within_released {k : Ticket} {newBase : Round} (hnew : k.range.newBase = .ok newBase)
    (t : Member γ) (fx : Effects) (h : t.Within newBase) :
    (notice .released k (t, fx)).2.1.Within newBase := by
  cases t with
  | durable b =>
    show (Bulletin.announceLanded k (b, fx)).2.1.latest ≤ newBase
    rw [Bulletin.announceLanded_eq hnew]
    rcases Bulletin.announce_cases newBase b fx with ⟨-, heq⟩ | ⟨-, hannounced⟩
    · rw [heq]
      exact h
    · rw [hannounced.latest]
      exact Nat.le_refl _
  | memory b => trivial
  | tail t => trivial
  | guest g => trivial

end Member

namespace Pipeline

/-- A pipeline that opens is new: nothing loaded, no mark, no queue. -/
theorem open?_eq_ok {τ : Type} {p : Pipeline τ} {trackers : List τ} {config : Config}
    {store : Store} {effects : Effects} (h : open? trackers config store effects = .ok p) :
    p = { trackers, config, store, effects } := by
  unfold open? at h
  split at h
  · cases h
  · split at h <;> cases h
    rfl

/-- A loaded pipeline is at the round of its store, and no durable bulletin is ahead of that. -/
structure Current (p : Pipeline (Member γ)) : Prop where
  durable : p.loaded → p.durable = p.store.round
  within : ∀ t ∈ p.trackers, t.Within p.store.round

variable {p q : Pipeline (Member γ)}

/-- What is steady leaves a pipeline current. -/
theorem Current.of_steady (h : p.Steady q) (hp : p.Current) : q.Current where
  durable hloaded := by
    rw [h.durable, h.store]
    exact hp.durable (h.loaded ▸ hloaded)
  within := by
    rw [h.store]
    exact h.forall_trackers (fun hsteady => .of_sameBoards hsteady.sameBoards) hp.within

variable [Guest γ]

/-- A block is announced by memory bulletins, which the invariant says nothing of. -/
theorem current_newBlock (block : Block) (delta : Delta) (hp : p.Current) :
    (p.newBlock block delta).2.Current where
  durable := hp.durable
  within := (ask_forall (I := fun _ => True)
    (fun t fx ht _ => ⟨Member.within_newBlock block delta t fx ht, trivial⟩) hp.within trivial).1

/-- Closing leaves a pipeline current. -/
theorem current_close (hp : p.Current) : p.close.2.Current := by
  have hwithin := (ask_forall (I := fun _ => True) (a := Tracker.close)
    (fun t fx ht _ => ⟨.of_sameBoards (Member.sameBoards_close t fx).1 ht, trivial⟩) hp.within
    trivial).1
  rcases close_cases p with heq | heq <;> rw [heq] <;> exact ⟨hp.durable, hwithin⟩

/-- A load leaves a pipeline current, even where it fails halfway. -/
theorem current_load (ledger : LedgerView) (hp : p.Current) : (p.load ledger).2.Current := by
  obtain ⟨hstore, hround⟩ := load_frame ledger p
  have hwithin : ∀ t ∈ (p.load ledger).2.trackers, t.Within p.store.round :=
    (load_forall (I := fun _ => True)
      (fun t fx _ _ => ⟨Member.within_load ledger p.store _ t fx, trivial⟩)
      (fun block delta t fx ht _ => ⟨Member.within_newBlock block delta t fx ht, trivial⟩)
      hp.within trivial).1
  refine ⟨fun hloaded => ?_, by rw [hstore]; exact hwithin⟩
  rw [hstore]
  rcases hround with ⟨-, hdurable, -⟩ | ⟨-, hdurable, hsame⟩
  · exact hdurable
  · rw [hdurable]
    exact hp.durable (hsame ▸ hloaded)

/-- Whatever was there before, a load that ends well leaves a loaded pipeline at the round of its
store. -/
theorem current_of_load {ledger : LedgerView} (h : p.load ledger = (.ok (), q)) :
    q.Current ∧ q.loaded ∧ q.store.round = p.store.round := by
  obtain ⟨hstore, hround⟩ := load_frame ledger p
  rw [h] at hstore hround
  obtain ⟨-, hdurable, hloaded⟩ | ⟨hfailed, -⟩ := hround
  swap
  · exact absurd rfl hfailed
  refine ⟨⟨fun _ => hdurable.trans (congrArg Store.round hstore).symm, ?_⟩, hloaded,
    congrArg Store.round hstore⟩
  rw [show q.store = p.store from hstore]
  exact load_forall_of_ok (fun t fx => Member.within_load ledger p.store _ t fx)
    (fun block delta t fx ht => Member.within_newBlock block delta t fx ht) h

variable [KeepsRange γ] {k k' : Ticket} {newBase : Round}

/-- The transaction of a cycle does not lower the stored round. -/
theorem Writes.round_le (h : p.Writes k newBase k' q) (hp : p.Current) :
    p.store.round ≤ q.store.round := by
  rw [h.stored, ← hp.durable h.loaded]
  exact h.le

/-- A cycle that landed leaves the pipeline at the round it wrote, and announces no round above
it. -/
theorem current_settleLanded (h : p.Writes k newBase k' q) (hp : p.Current) :
    (q.settleLanded newBase k').2.2.Current := by
  obtain ⟨hstore, hdurable, -⟩ := settleLanded_frame (q := q) newBase k'
  have hnew : k'.range.newBase = .ok newBase := by rw [h.range, h.lands]
  have hwritten : ∀ t ∈ q.trackers, t.Within newBase := by
    rw [← h.stored]
    exact h.steady.forall_trackers (fun hsteady => .of_sameBoards hsteady.sameBoards)
      fun t ht => (hp.within t ht).mono (h.round_le hp)
  -- Bulletins were at most at the old round; those that announce now announce the new one.
  have hwithin : ∀ t ∈ (q.settleLanded newBase k').2.2.trackers, t.Within newBase :=
    (settleLanded_forall (I := fun _ => True)
      (fun t fx ht _ =>
        ⟨.of_sameBoards (Member.sameBoards_notice (n := .landed) nofun _ t fx).1 ht, trivial⟩)
      (fun t fx ht _ => ⟨Member.within_released (by exact hnew) t fx ht, trivial⟩)
      hwritten trivial).1
  refine ⟨fun _ => ?_, ?_⟩
  · rw [hstore, hdurable, h.stored]
  · rw [hstore, h.stored]
    exact hwithin

end Pipeline

/-! ## Runs -/

/-- From `p` to `q` the stored round did not fall, a loaded pipeline stayed loaded, and `q` is
current. -/
structure Pipeline.Advances (p q : Pipeline (Member γ)) : Prop where
  current : q.Current
  round_le : p.store.round ≤ q.store.round
  loaded : p.loaded → q.loaded

/-- Two advances are one. -/
theorem Pipeline.Advances.trans {p q r : Pipeline (Member γ)} (h : p.Advances q)
    (h' : q.Advances r) : p.Advances r :=
  ⟨h'.current, Nat.le_trans h.round_le h'.round_le, fun hloaded => h'.loaded (h.loaded hloaded)⟩

variable [Guest γ] [KeepsRange γ] {p : Pipeline (Member γ)}

/-- A request advances a pipeline: steady, or by the transactions of its cycles. -/
theorem Request.advances_run (request : Request) (hp : p.Current) :
    p.Advances (request.run p) := by
  refine request.run_preserves (I := p.Advances) ?_ ?_ ⟨hp, Nat.le_refl _, id⟩
  · intro q r hsteady hq
    refine ⟨hq.current.of_steady hsteady, ?_, fun hloaded => ?_⟩
    · rw [hsteady.store]
      exact hq.round_le
    · rw [hsteady.loaded]
      exact hq.loaded hloaded
  · intro q k newBase k' r hq hwrites
    obtain ⟨hstore, -, hloaded⟩ := Pipeline.settleLanded_frame (q := r) newBase k'
    refine ⟨Pipeline.current_settleLanded hwrites hq.current, ?_, fun _ => ?_⟩
    · rw [hstore]
      exact Nat.le_trans hq.round_le (hwrites.round_le hq.current)
    · rw [hloaded, hwrites.steady.loaded]
      exact hwrites.loaded

namespace Operation

/-- Any operation advances it, a load that fails included. -/
theorem advances_run (operation : Operation) (hp : p.Current) :
    p.Advances (operation.run p) := by
  cases operation with
  | load ledger =>
    obtain ⟨hstore, hround⟩ := Pipeline.load_frame ledger p
    refine ⟨Pipeline.current_load ledger hp, ?_, fun hloaded => ?_⟩
    · rw [run, hstore]
      exact Nat.le_refl _
    rcases hround with ⟨-, -, hnow⟩ | ⟨-, -, hsame⟩
    · exact hnow
    · exact hsame ▸ hloaded
  | newBlock block delta => exact ⟨Pipeline.current_newBlock block delta hp, Nat.le_refl _, id⟩
  | request r => exact r.advances_run hp
  | close =>
    have hclosed := Pipeline.current_close hp
    rw [run]
    rcases Pipeline.close_cases p with heq | heq <;> rw [heq] at hclosed ⊢ <;>
      exact ⟨hclosed, Nat.le_refl _, id⟩

/-- Any run advances a pipeline that is current. -/
theorem advances_runAll (operations : List Operation) (hp : p.Current) :
    p.Advances (runAll operations p) := by
  induction operations generalizing p with
  | nil => exact ⟨hp, Nat.le_refl _, id⟩
  | cons operation rest ih =>
    have hfirst := operation.advances_run hp
    exact hfirst.trans (ih hfirst.current)

end Operation

end CommitPipeline
