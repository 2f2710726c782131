import CommitPipeline.Proofs.SoleTail

/-!
# Which blocks reach the tail

A block is handed to the trackers in order, so it reaches the tail unless a tracker before that one
is cut short. What the tail holds above the stored round is always the block of that round that
reached it last: loads forget, landings trim, and nothing but a block adds a summary there.

The module introduces:

* `Pipeline.handed`, `Pipeline.loadHanded`, `Operation.handed` — the blocks that reach the tail in
  an operation, the latest one first;
* `lastOf` — the last block of a round among those;
* `Pipeline.Reflects` — above the stored round the tail holds what reached it last, with one lemma
  for each operation.
-/

namespace CommitPipeline

variable {γ : Type}

/-! ## What is handed on -/

section Handed

variable [Guest γ]

namespace Pipeline

/-- What reaches the tail when a block is handed to the trackers: the block, unless a tracker before
the tail is cut short. -/
def handed (block : Block) (delta : Delta) (p : Pipeline (Member γ)) : List Block :=
  let before := p.trackers.takeWhile fun t => !t.kind.isTail
  match (sweep (Tracker.newBlock block delta) before p.effects).1 with
  | .ok () => [block]
  | .error _ => []

/-- The blocks that reach the tail in a replay, the latest one first. -/
def replayHanded (ledger : LedgerView) : Nat → Round → Pipeline (Member γ) → List Block
  | 0, _, _ => []
  | count + 1, r, p =>
    match ledger.block r with
    | none => []
    | some (block, delta) =>
      match p.newBlock block delta, r.next with
      | (.ok (), q), .ok following =>
        replayHanded ledger count following q ++ p.handed block delta
      -- The replay ends here, but the block may have reached the tail.
      | _, _ => p.handed block delta

/-- The blocks that reach the tail in a load, the latest one first. -/
def loadHanded (ledger : LedgerView) (p : Pipeline (Member γ)) : List Block :=
  if ledger.latest < p.store.round then []
  else
    match p.ask (Tracker.load ledger p.store p.store.round), p.store.round.next with
    | (.ok (), q), .ok first =>
      q.replayHanded ledger (ledger.latest.since p.store.round).toNat first
    | _, _ => []

end Pipeline

/-- The blocks that reach the tail in an operation, the latest one first. -/
def Operation.handed : Operation → Pipeline (Member γ) → List Block
  | load ledger, p => p.loadHanded ledger
  | newBlock block delta, p => p.handed block delta
  | request _, _ | close, _ => []

/-- If no tracker is cut short, the block reaches the tail. -/
theorem Pipeline.handed_of_ok {block : Block} {delta : Delta} {p : Pipeline (Member γ)}
    (h : (p.newBlock block delta).1 = .ok ()) : p.handed block delta = [block] := by
  have hsweep : (sweep (Tracker.newBlock block delta) p.trackers p.effects).1 = .ok () := h
  rw [← List.takeWhile_append_dropWhile (p := fun t : Member γ => !t.kind.isTail)
    (l := p.trackers)] at hsweep
  rcases hbefore : sweep (Tracker.newBlock block delta)
    (p.trackers.takeWhile fun t => !t.kind.isTail) p.effects with ⟨f | _, before, fx⟩
  · rw [sweep_append_of_error _ hbefore] at hsweep
    cases hsweep
  · simp only [handed, hbefore]

end Handed

/-- The block of a round that came last, the latest block being the first of the list. -/
def lastOf (r : Round) (blocks : List Block) : Option Block := blocks.find? fun b => b.round = r

/-- The block of a round that was delivered last is the first in the list with this round. -/
theorem lastOf_cons (r : Round) (block : Block) (blocks : List Block) :
    lastOf r (block :: blocks) = if r = block.round then some block else lastOf r blocks := by
  unfold lastOf
  by_cases h : r = block.round
  · rw [if_pos h, List.find?_cons_of_pos (by simp [h])]
  · rw [if_neg h, List.find?_cons_of_neg (by simp [Ne.symm h])]

/-! ## What the tail holds of it -/

namespace Tail

variable {u u' : Tail} {blocks : List Block} {durable : Round}

/-- A tail that starts from the store holds nothing above the durable round. -/
theorem le_of_reload {s : Store} (h : u.reload s durable = .ok u') {r : Round} {sm : Summary}
    (hget : u'.entries.get? r = some sm) : r ≤ durable := by
  obtain ⟨floor, entries, -, rfl, hentries⟩ := of_reload_eq_ok h
  exact ((hentries r sm).1 hget).1.2

/-- Above the durable round a tail holds, of the blocks that reached it, the last of each round. -/
def Reflects (blocks : List Block) (durable : Round) (u : Tail) : Prop :=
  ∀ r sm, durable < r → u.entries.get? r = some sm →
    ∃ block, lastOf r blocks = some block ∧ sm = .ofBlock block

/-- A tail that lost summaries holds of the others what it held. -/
theorem Reflects.of_subset (h : u.Reflects blocks durable)
    (hsub : ∀ r sm, u'.entries.get? r = some sm → u.entries.get? r = some sm) :
    u'.Reflects blocks durable := by
  intro r sm hr hget
  exact h r sm hr (hsub r sm hget)

/-- A higher durable round asks for no more rows than a lower one. -/
theorem Reflects.mono {later : Round} (h : u.Reflects blocks durable) (hle : durable ≤ later) :
    u.Reflects blocks later := by
  intro r sm hr hget
  exact h r sm (Nat.lt_of_le_of_lt hle hr) hget

/-- A block that reaches the tail is the last one of its round. -/
theorem reflects_add (block : Block) (h : u.Reflects blocks durable) :
    (u.add block).Reflects (block :: blocks) durable := by
  intro r sm hr hget
  have hget : (u.entries.insert block.round (.ofBlock block)).get? r = some sm := hget
  rw [RoundTable.get?_insert] at hget
  rw [lastOf_cons]
  by_cases hround : r = block.round
  · rw [if_pos hround] at hget ⊢
    exact ⟨block, rfl, (Option.some.inj hget).symm⟩
  · rw [if_neg hround] at hget ⊢
    exact h r sm hr hget

end Tail

namespace Member

variable {blocks : List Block} {durable : Round}

/-- Above the durable round a tail holds what reached it last; of other trackers nothing is said. -/
def Reflects (blocks : List Block) (durable : Round) : Member γ → Prop
  | tail u => u.Reflects blocks durable
  | memory _ | Member.durable _ | guest _ => True

/-- Only of a tail something is asked. -/
theorem reflects_of_not_tail {t : Member γ} (h : t.kind.isTail = false) :
    t.Reflects blocks durable := by
  cases t with
  | tail u => cases h
  | memory b => trivial
  | durable b => trivial
  | guest g => trivial

theorem Reflects.mono {later : Round} {t : Member γ} (h : t.Reflects blocks durable)
    (hle : durable ≤ later) : t.Reflects blocks later := by
  cases t with
  | tail u => exact Tail.Reflects.mono h hle
  | memory b => trivial
  | durable b => trivial
  | guest g => trivial

/-- A steady tail has the same rows. -/
theorem Reflects.of_steady {t t' : Member γ} (hsteady : t.Steady t')
    (h : t.Reflects blocks durable) : t'.Reflects blocks durable := by
  cases hsteady with
  | tail u staged => exact h
  | memory b => trivial
  | durable b => trivial
  | guest g g' => trivial

variable [Guest γ]

/-- However a cycle went on, a tail that hears of it takes up nothing. -/
theorem reflects_notice (n : Notice) (k : Ticket) (t : Member γ) (fx : Effects)
    (h : t.Reflects blocks durable) : (notice n k (t, fx)).2.1.Reflects blocks durable := by
  -- Only what follows a landed cycle changes a tail's rows in memory.
  by_cases hn : n = .landed ∨ n = .released
  swap
  · obtain ⟨hlanded, hreleased⟩ := not_or.mp hn
    exact h.of_steady (steady_notice hlanded hreleased k t fx).1
  cases t with
  | memory b => trivial
  | durable b =>
    rcases hn with rfl | rfl <;> trivial
  | guest g => trivial
  | tail u =>
    rcases hn with rfl | rfl
    · cases hadvance : u.advance k.range with
      | error f =>
        simp only [notice, hadvance]
        exact h
      | ok u' =>
        obtain ⟨_, floor, -, -, rfl⟩ := Tail.advance_eq_ok_iff.mp hadvance
        simp only [notice, hadvance]
        refine Tail.Reflects.of_subset h fun r sm hget => ?_
        rw [RoundTable.get?_atLeast, Option.ite_none_right_eq_some] at hget
        exact hget.2
    · exact h

/-- A tail that closes forgets. -/
theorem reflects_close (t : Member γ) (fx : Effects) (h : t.Reflects blocks durable) :
    (close (t, fx)).2.1.Reflects blocks durable := by
  cases t with
  | tail u =>
    apply Tail.Reflects.of_subset h
    intro r sm hget
    cases hget
  | memory b => trivial
  | durable b => trivial
  | guest g => trivial

/-- A tail that starts from the store forgets what lies above it, or stays as it was. -/
theorem reflects_load (ledger : LedgerView) (s : Store) (t : Member γ) (fx : Effects)
    (h : t.Reflects blocks s.round) :
    (load ledger s s.round (t, fx)).2.1.Reflects blocks s.round := by
  cases t with
  | memory b => trivial
  | durable b => trivial
  | guest g => trivial
  | tail u =>
    cases hreload : u.reload s s.round with
    | error stop =>
      simp only [load, hreload]
      exact h
    | ok u' =>
      simp only [load, hreload]
      intro r sm hr hget
      exact absurd (Tail.le_of_reload hreload hget) (Nat.not_le.mpr hr)

end Member

namespace Pipeline

variable {p q : Pipeline (Member γ)} {blocks : List Block}

/-- Above the stored round the tail of a pipeline holds what reached it last. -/
def Reflects (blocks : List Block) (p : Pipeline (Member γ)) : Prop :=
  ∀ t ∈ p.trackers, t.Reflects blocks p.store.round

theorem Reflects.of_steady (hsteady : p.Steady q) (h : p.Reflects blocks) : q.Reflects blocks := by
  unfold Reflects
  rw [hsteady.store]
  exact hsteady.forall_trackers (fun hsteady => .of_steady hsteady) h

variable [Guest γ]

/-- Telling the trackers of a landing moves nothing into the tail. -/
theorem reflects_settleLanded (newBase : Round) (k : Ticket) (h : q.Reflects blocks) :
    (q.settleLanded newBase k).2.2.Reflects blocks := by
  unfold Reflects
  rw [(settleLanded_frame newBase k).1]
  exact (settleLanded_forall (I := fun _ => True)
    (fun t fx ht _ => ⟨Member.reflects_notice .landed _ t fx ht, trivial⟩)
    (fun t fx ht _ => ⟨Member.reflects_notice .released _ t fx ht, trivial⟩) h trivial).1

/-- Closing takes no rows away. -/
theorem reflects_close (h : p.Reflects blocks) : p.close.2.Reflects blocks := by
  have hask : ∀ t ∈ (p.ask Tracker.close).2.trackers, t.Reflects blocks p.store.round :=
    (ask_forall (I := fun _ => True)
      (fun t fx ht _ => ⟨Member.reflects_close t fx ht, trivial⟩) h trivial).1
  rcases close_cases p with heq | heq <;> rw [heq] <;> exact hask

/-- A block brings in no second tail. -/
theorem sole_newBlock (block : Block) (delta : Delta) (hsole : p.Sole) :
    (p.newBlock block delta).2.Sole :=
  hsole.of_kinds (kinds_ask (Member.kind_newBlock block delta))

/-- A block reaches the tail, or a tracker before the tail is cut short and it does not. -/
theorem reflects_newBlock (block : Block) (delta : Delta) (hsole : p.Sole)
    (h : p.Reflects blocks) :
    (p.newBlock block delta).2.Reflects (p.handed block delta ++ blocks) := by
  obtain ⟨u, hu⟩ := hsole.exists_tail
  obtain ⟨before, after, hsplit, hothers⟩ := hsole.exists_amid hu
  have hbefore : p.trackers.takeWhile (fun t => !t.kind.isTail) = before := by
    rw [hsplit, List.takeWhile_append_of_pos, List.takeWhile_cons_of_neg (by simp [Member.kind,
      Kind.isTail]), List.append_nil]
    intro t ht
    simp [hothers t (List.mem_append_left _ ht)]
  have hkept : u.Reflects blocks p.store.round := h (.tail u) hu
  have hanswered : ∃ u', .tail u' ∈ (p.newBlock block delta).2.trackers ∧
      u'.Reflects (p.handed block delta ++ blocks) p.store.round := by
    have htrackers : (p.newBlock block delta).2.trackers =
        (sweep (Tracker.newBlock block delta) p.trackers p.effects).2.1 := rfl
    rw [htrackers, hsplit, handed, hbefore]
    -- If one of those before the tail is cut short, nobody after that one is asked.
    rcases hsweep : sweep (Tracker.newBlock block delta) before p.effects with ⟨f | _, before', fx⟩
    · rw [sweep_append_of_error _ hsweep]
      exact ⟨u, List.mem_append_right _ List.mem_cons_self, hkept⟩
    · have htaken : Tracker.newBlock block delta ((.tail u : Member γ), fx) =
          (.ok (), .tail (u.add block), fx) := rfl
      rw [sweep_append_of_ok _ hsweep, sweep_cons_of_ok after htaken]
      exact ⟨u.add block, List.mem_append_right _ List.mem_cons_self,
        Tail.reflects_add block hkept⟩
  obtain ⟨u', hu', hreflects⟩ := hanswered
  exact (sole_newBlock block delta hsole).forall_trackers hu' hreflects
    fun t ht => Member.reflects_of_not_tail ht

/-- Replayed blocks count as handed to the tail, by induction on those that are left. -/
theorem reflects_replay (ledger : LedgerView) (count : Nat) (r : Round) (hsole : p.Sole)
    (h : p.Reflects blocks) :
    (p.replay ledger count r).2.Reflects (p.replayHanded ledger count r ++ blocks) := by
  -- By induction on the blocks still to come; those that came before are among `blocks` then.
  induction count generalizing r p blocks with
  | zero => exact h
  | succ count ih =>
    unfold replay replayHanded
    cases ledger.block r with
    | none => exact h
    | some entry =>
      obtain ⟨block, delta⟩ := entry
      have hnext := reflects_newBlock block delta hsole h
      have hsole := sole_newBlock block delta hsole
      simp only
      rcases hnew : p.newBlock block delta with ⟨f | _, q⟩ <;> rw [hnew] at hnext hsole
      · exact hnext
      cases r.next with
      | error f => exact hnext
      | ok following =>
        have hrest := ih following hsole hnext
        simp only [List.append_assoc]
        rcases hreplay : q.replay ledger count following with ⟨f | n, q'⟩ <;> rw [hreplay] at hrest
        · exact hrest
        · exact hrest

/-- A load begins with the rows of the store, and goes on with the blocks it replays. -/
theorem reflects_load (ledger : LedgerView) (hsole : p.Sole) (h : p.Reflects blocks) :
    (p.load ledger).2.Reflects (p.loadHanded ledger ++ blocks) := by
  have hask : (p.ask (Tracker.load ledger p.store p.store.round)).2.Reflects blocks :=
    (ask_forall (I := fun _ => True)
      (fun t fx ht _ => ⟨Member.reflects_load ledger p.store t fx ht, trivial⟩) h trivial).1
  have hsole : (p.ask (Tracker.load ledger p.store p.store.round)).2.Sole :=
    hsole.of_kinds (kinds_ask (Member.kind_load ledger p.store p.store.round))
  unfold load loadHanded
  by_cases hahead : ledger.latest < p.store.round
  · simp only [if_pos hahead]
    exact h
  simp only [if_neg hahead]
  rcases hstart : p.ask (Tracker.load ledger p.store p.store.round) with ⟨stop | _, p₁⟩ <;>
    rw [hstart] at hask hsole
  · -- A load that is stopped has replayed nothing.
    exact hask
  unfold replayAbove
  cases p.store.round.next with
  | error f => exact hask
  | ok first =>
    have hreplay := reflects_replay ledger (ledger.latest.since p.store.round).toNat first hsole
      hask
    simp only
    rcases hrest : p₁.replay ledger (ledger.latest.since p.store.round).toNat first with
      ⟨f | n, p₂⟩ <;> rw [hrest] at hreplay
    · exact hreplay
    · exact hreplay

end Pipeline

end CommitPipeline
