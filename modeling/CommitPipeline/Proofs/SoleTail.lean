import CommitPipeline.Proofs.Crew

/-!
# One tail among other trackers

A pipeline with one block tail, the other trackers being of any sort. The guests among them may
write what they like but for the table of the tail. Then what a cycle does to that table is what the
tail does, wherever it stands and whatever the others do to the ticket apart from its range.

The module introduces:

* `SparesTail` — guests that leave the table of the tail alone;
* `Pipeline.Sole`, `Amid` — a pipeline has one tail; where it stands among the others;
* `Tail.Moves` — what a transaction does to the table of the tail;
* `Pipeline.moves_of_writes` — it does so in every cycle that is written.
-/

namespace CommitPipeline

/-- Guests that leave the table of the tail alone when they write. -/
class SparesTail (γ : Type) [Guest γ] : Prop where
  /-- Whatever they write, the table of the tail is what it was. -/
  table_write : ∀ (g : γ) (k : Ticket) (s : Store),
    (Guest.write (g, k, s)).2.2.2.table tailTable = s.table tailTable

/-- Whether a kind is that of a tail. -/
def Kind.isTail : Kind → Bool
  | tail _ => true
  | memory | durable | guest => false

variable {γ : Type}

namespace Member

/-- A member whose kind is that of a tail is one. -/
theorem exists_of_isTail {t : Member γ} (h : t.kind.isTail) : ∃ u, t = .tail u := by
  cases t with
  | tail u => exact ⟨u, rfl⟩
  | memory b => cases h
  | durable b => cases h
  | guest g => cases h

/-- Trackers that are no tails leave the table of the tail alone. -/
theorem table_write [Guest γ] [SparesTail γ] {t : Member γ} (h : t.kind.isTail = false)
    (fx : Effects) (k : Ticket) (s : Store) :
    (write (t, fx, k, s)).2.2.2.2.table tailTable = s.table tailTable := by
  cases t with
  | memory b => rfl
  | durable b => rfl
  | tail u => cases h
  | guest g => exact SparesTail.table_write g k s

end Member

/-- Among the trackers stands a tail, and those before and after it are none. -/
structure Amid (trackers before : List (Member γ)) (u : Tail) (after : List (Member γ)) : Prop where
  split : trackers = before ++ .tail u :: after
  others : ∀ t ∈ before ++ after, t.kind.isTail = false

/-- Whichever tail is found among the trackers, it is the one that stands there. -/
theorem Amid.eq_of_mem {trackers before after : List (Member γ)} {u u' : Tail}
    (h : Amid trackers before u after) (hu : .tail u' ∈ trackers) : u' = u := by
  have hothers := List.forall_mem_append.mp h.others
  rw [h.split] at hu
  rcases List.mem_append.mp hu with hbefore | hu
  · cases hothers.1 _ hbefore
  rcases List.mem_cons.mp hu with heq | hafter
  · exact Member.tail.inj heq
  · cases hothers.2 _ hafter

/-- A transaction moves the table of a tail: of the rounds that become durable, all of which the
tail holds, it gets what the tail holds; of the others it keeps what was there; and nothing stays
behind the window of the new durable round. -/
structure Tail.Moves (u : Tail) (store store' : Store) : Prop where
  le : store.round ≤ store'.round
  held : ∀ r, store.round < r → r ≤ store'.round → (u.entries.get? r).isSome
  get?_eq : ∀ r, store'.get? tailTable r =
    if r.toNat < store'.round.toNat + 1 - u.retain.toNat then none
    else if store.round < r ∧ r ≤ store'.round then (u.entries.get? r).map Summary.encode
    else store.get? tailTable r

namespace Pipeline

/-- A pipeline has one tail. -/
def Sole (p : Pipeline (Member γ)) : Prop := p.kinds.countP Kind.isTail = 1

variable {p q : Pipeline (Member γ)} {u : Tail}

theorem Sole.of_kinds (h : p.Sole) (hkinds : q.kinds = p.kinds) : q.Sole := by
  unfold Sole
  rw [hkinds]
  exact h

theorem Sole.exists_tail (h : p.Sole) : ∃ u, .tail u ∈ p.trackers := by
  have hpos : 0 < p.kinds.countP Kind.isTail := by
    rw [h]
    exact Nat.one_pos
  obtain ⟨kind, hmem, hkind⟩ := List.countP_pos_iff.mp hpos
  obtain ⟨t, ht, rfl⟩ := List.mem_map.mp hmem
  obtain ⟨u, rfl⟩ := Member.exists_of_isTail hkind
  exact ⟨u, ht⟩

/-- The tail of a pipeline stands somewhere among others that are none. -/
theorem Sole.exists_amid (h : p.Sole) (hu : .tail u ∈ p.trackers) :
    ∃ before after, Amid p.trackers before u after := by
  obtain ⟨before, after, hsplit⟩ := List.append_of_mem hu
  refine ⟨before, after, hsplit, ?_⟩
  -- The count is used up by the tail itself.
  have hothers : ((before ++ after).map Member.kind).countP Kind.isTail = 0 := by
    have hcount : (p.trackers.map Member.kind).countP Kind.isTail = 1 := h
    rw [hsplit, List.map_append, List.map_cons, List.countP_append,
      List.countP_cons_of_pos rfl] at hcount
    rw [List.map_append, List.countP_append]
    omega
  intro t ht
  have hnot := List.countP_eq_zero.mp hothers t.kind (List.mem_map_of_mem ht)
  simpa using hnot

/-- What the tail has, and what is asked of nobody else, all trackers have. -/
theorem Sole.forall_trackers {G : Member γ → Prop} (h : p.Sole) (hu : .tail u ∈ p.trackers)
    (hG : G (.tail u)) (hothers : ∀ t : Member γ, t.kind.isTail = false → G t) :
    ∀ t ∈ p.trackers, G t := by
  obtain ⟨before, after, hamid⟩ := h.exists_amid hu
  intro t ht
  cases hkind : t.kind.isTail with
  | false => exact hothers t hkind
  | true =>
    obtain ⟨u', rfl⟩ := Member.exists_of_isTail hkind
    rw [hamid.eq_of_mem ht]
    exact hG

/-- Steady changes leave the tail as it was, but for the picked rows. -/
theorem exists_tail_of_steady (h : p.Steady q) (hsole : p.Sole) (hu : .tail u ∈ p.trackers) :
    ∃ staged, .tail { u with staged } ∈ q.trackers := by
  obtain ⟨u', hu'⟩ := (hsole.of_kinds (kinds_of_steady h)).exists_tail
  have hsteady : ∀ t ∈ q.trackers, (Member.tail u).Steady t ∨ t.kind.isTail = false := by
    refine h.forall_trackers (G := fun t => (Member.tail u).Steady t ∨ t.kind.isTail = false) ?_
      (hsole.forall_trackers hu (.inl (.refl _)) fun t ht => .inr ht)
    intro t t' htt' hG
    refine hG.imp (fun hut => hut.trans htt') fun hkind => ?_
    rw [htt'.kind]
    exact hkind
  rcases hsteady _ hu' with hut | hkind
  · cases hut with
    | tail _ staged => exact ⟨staged, hu'⟩
  · cases hkind

variable [Guest γ] [KeepsRange γ] {k k' : Ticket} {newBase : Round}

/-- Once everybody has got ready, the tail has picked the rows of the range. -/
theorem exists_stage_of_prepareAll (hu : .tail u ∈ p.trackers)
    (h : p.prepareAll k = (.ok (), k', q)) :
    ∃ u', u.stage k.range = .ok u' ∧ .tail u' ∈ q.trackers := by
  obtain ⟨before, after, hsplit⟩ := List.append_of_mem hu
  unfold prepareAll at h
  rcases hsweep : sweep Tracker.prepare p.trackers (p.effects, k) with
    ⟨stop | _, trackers, effects, k₁⟩ <;> rw [hsweep] at h <;> cases h
  rw [hsplit] at hsweep
  obtain ⟨before', ⟨fx, k₁⟩, t, ⟨fx', k₂⟩, after', hbefore, htail, -, rfl⟩ :=
    exists_of_sweep_ok hsweep
  -- Those before the tail hand the ticket on with its range.
  have hrange : k₁.range = k.range := by
    have hkept := (sweep_forall (G := fun _ => True)
      (I := fun c : Effects × Ticket => c.2.range = k.range)
      (fun t c _ hc => ⟨trivial, (Member.range_prepare t c.1 c.2).trans hc⟩)
      before (c := (p.effects, k)) (fun _ _ => trivial) rfl).2
    rw [show sweep Member.prepare _ _ = _ from hbefore] at hkept
    exact hkept
  have htail : Member.prepare ((.tail u : Member γ), fx, k₁) = (.ok (), t, fx', k₂) := htail
  cases hstage : u.stage k₁.range with
  | error stop =>
    rw [Member.prepare, hstage] at htail
    cases htail
  | ok u' =>
    rw [Member.prepare, hstage] at htail
    cases htail
    exact ⟨u', hrange ▸ hstage, List.mem_append_right _ List.mem_cons_self⟩

/-- In a transaction only the tail touches its table. -/
theorem table_of_transaction [SparesTail γ] (hsole : p.Sole) (hu : .tail u ∈ p.trackers)
    (h : p.transaction newBase k = (.ok (), k', q)) :
    ∃ found pruned left, found.table tailTable = p.store.table tailTable ∧
      u.writeStaged k.range found = (.ok pruned, left) ∧
      q.store.table tailTable = left.table tailTable := by
  obtain ⟨before, after, hamid⟩ := hsole.exists_amid hu
  obtain ⟨hbefore, hafter⟩ := List.forall_mem_append.mp hamid.others
  obtain ⟨trackers, effects, working, hsweep, rfl⟩ := transaction_eq_ok h
  rw [hamid.split] at hsweep
  obtain ⟨before', ⟨fx, k₁, found⟩, t, ⟨fx', k₂, left⟩, after', hfirst, htail, hlast, rfl⟩ :=
    exists_of_sweep_ok hsweep
  -- Those before the tail and those after it leave the range and the table alone.
  have hspared : ∀ (others : List (Member γ)) (fx : Effects) (k : Ticket) (s : Store),
      (∀ t ∈ others, t.kind.isTail = false) →
        (sweep Member.write others (fx, k, s)).2.2.2.1.range = k.range ∧
          (sweep Member.write others (fx, k, s)).2.2.2.2.table tailTable = s.table tailTable := by
    intro others fx k s hothers
    refine (sweep_forall (G := fun t : Member γ => t.kind.isTail = false)
      (I := fun c : Effects × Ticket × Store =>
        c.2.1.range = k.range ∧ c.2.2.table tailTable = s.table tailTable)
      ?_ others (c := (fx, k, s)) hothers ⟨rfl, rfl⟩).2
    intro t c ht hc
    refine ⟨?_, (Member.range_write t c.1 c.2.1 c.2.2).trans hc.1,
      (Member.table_write ht c.1 c.2.1 c.2.2).trans hc.2⟩
    rw [(Member.steady_write t c.1 c.2.1 c.2.2).1.kind]
    exact ht
  obtain ⟨hrange, hfound⟩ := hspared before p.effects k p.store hbefore
  obtain ⟨-, hleft⟩ := hspared after fx' k₂ left hafter
  rw [show sweep Member.write _ _ = _ from hfirst] at hrange hfound
  rw [show sweep Member.write _ _ = _ from hlast] at hleft
  have htail : Member.write ((.tail u : Member γ), fx, k₁, found) = (.ok (), t, fx', k₂, left) :=
    htail
  rcases hwrite : u.writeStaged k₁.range found with ⟨stop | pruned, written⟩ <;>
    rw [Member.write, hwrite] at htail <;> cases htail
  exact ⟨found, pruned, left, hfound, by rw [← hwrite, hrange], hleft⟩

/-- What a cycle that is written leaves in the table of the tail. -/
theorem moves_of_writes [SparesTail γ] (h : p.Writes k newBase k' q) (hsole : p.Sole)
    (hlevel : p.durable = p.store.round) (hu : .tail u ∈ p.trackers) :
    u.Moves p.store q.store := by
  obtain ⟨k₁, p₁, hprepared, hnew, hwritten⟩ := h.phases
  obtain ⟨u', hstage, hu'⟩ := exists_stage_of_prepareAll (p := p.log _) hu hprepared
  have hsteady := (steady_log (p := p) (.cycleEntered k.range.base k.range.length)).trans
    (steady_prepareAll k)
  have hrange := range_prepareAll (p := p.log (.cycleEntered k.range.base k.range.length)) k
  rw [hprepared] at hsteady hrange
  have hrange : k₁.range = k.range := hrange
  -- Only the tail writes into its table, so the rows in it are what it wrote.
  obtain ⟨found, pruned, left, hfound, hwrite, hleft⟩ :=
    table_of_transaction (hsole.of_kinds (kinds_of_steady hsteady)) hu' hwritten
  rw [hrange] at hwrite
  obtain ⟨floor, hfloor, hheld, hrows⟩ := Tail.get?_writeStaged h.lands hstage hwrite
  have hlow := (Tail.windowFloor_eq_ok_iff.mp hfloor).2
  rw [h.base, hlevel] at hheld
  refine ⟨?_, ?_, ?_⟩
  · rw [h.stored, ← hlevel]
    exact h.le
  · rw [h.stored]
    exact hheld
  · intro r
    have hrow := hrows r
    rw [h.base, hlevel] at hrow
    unfold Store.get? at hrow ⊢
    rw [h.stored, ← hlow, hleft, hrow, hfound, hsteady.store]
    rfl

end Pipeline

end CommitPipeline
