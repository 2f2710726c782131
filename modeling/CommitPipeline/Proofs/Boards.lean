import CommitPipeline.Proofs.Cycle

/-!
# Bulletins and their signals

What an announcement fires, and which operations announce anything at all: a memory bulletin
announces the rounds of blocks, a durable one announces a new durable round once readers are let in
again, and nothing else fires a signal.

The module introduces:

* `Bulletin.Announced` — a round was announced, seen from the bulletin and from the signals;
* `Member.SameBoards` — bulletins are what they were; of other trackers nothing is said;
* `Pipeline.settleLanded_forall` — what the trackers keep while they are told of a landed cycle.
-/

namespace CommitPipeline

namespace SignalBoard

theorem made_fire (board : SignalBoard) (id : SignalId) : (board.fire id).2.made = board.made := by
  unfold fire
  split <;> rfl

theorem made_fireAll (board : SignalBoard) (ids : List SignalId) :
    (board.fireAll ids).made = board.made := by
  unfold fireAll
  induction ids generalizing board with
  | nil => rfl
  | cons id rest ih => rw [List.foldl_cons, ih, made_fire]

/-- The signals that have fired after some were fired: these and those before. -/
theorem isFired_fireAll (board : SignalBoard) (ids : List SignalId) (other : SignalId) :
    (board.fireAll ids).isFired other ↔ other ∈ ids ∨ board.isFired other := by
  unfold fireAll
  induction ids generalizing board with
  | nil => simp
  | cons id rest ih =>
    rw [List.foldl_cons, ih, isFired_fire, List.mem_cons, Bool.or_eq_true, beq_iff_eq]
    tauto

end SignalBoard

namespace Bulletin

/-- From `b` to `b'` a round was announced: it is the latest one, the waiters at or below it are
forgotten, and their signals have fired. -/
structure Announced (r : Round) (b b' : Bulletin) (board board' : SignalBoard) : Prop where
  notBelow : b.latest ≤ r
  latest : b'.latest = r
  pending : ∀ q, b'.pending.get? q = if q ≤ r then none else b.pending.get? q
  made : board'.made = board.made
  fired : ∀ s, board'.isFired s ↔ board.isFired s ∨ ∃ q, q ≤ r ∧ b.pending.get? q = some s

/-- A round below the latest one is a fault that changes nothing; any other is announced. -/
theorem announce_cases (r : Round) (b : Bulletin) (fx : Effects) :
    (r < b.latest ∧ announce r (b, fx) = (.error (.regressed r b.latest), b, fx)) ∨
      ((announce r (b, fx)).1 = .ok () ∧
        Announced r b (announce r (b, fx)).2.1 fx.signals (announce r (b, fx)).2.2.signals) := by
  simp only [announce]
  by_cases h : r < b.latest
  · rw [if_pos h]
    exact .inl ⟨h, rfl⟩
  · rw [if_neg h]
    refine .inr ⟨rfl, ?_⟩
    exact {
      notBelow := Nat.le_of_not_lt h
      latest := rfl
      pending := by
        intro q
        show (b.pending.keep fun round => !(round ≤ r)).get? q = _
        rw [RoundTable.get?_keep]
        by_cases hq : q ≤ r <;> simp [hq]
      made := by
        rw [Effects.signals_logIf]
        exact SignalBoard.made_fireAll _ _
      -- What fires is what is pending at or below the round, and nothing else.
      fired := by
        intro s
        rw [Effects.signals_logIf, SignalBoard.isFired_fireAll, or_comm]
        refine or_congr Iff.rfl ?_
        simp only [List.mem_map, Prod.exists, exists_eq_right, ← RoundTable.get?_eq_some_iff,
          RoundTable.get?_keep, decide_eq_true_eq, Option.ite_none_right_eq_some] }

/-- A block at or below the latest round changes nothing; the round of any other is announced. -/
theorem announceBlock_cases (block : Block) (b : Bulletin) (fx : Effects) :
    (block.round ≤ b.latest ∧ announceBlock block (b, fx) = (.ok (), b, fx)) ∨
      ((announceBlock block (b, fx)).1 = .ok () ∧
        Announced block.round b (announceBlock block (b, fx)).2.1 fx.signals
          (announceBlock block (b, fx)).2.2.signals) := by
  simp only [announceBlock]
  by_cases h : block.round ≤ b.latest
  · rw [if_pos h]
    exact .inl ⟨h, rfl⟩
  · rw [if_neg h]
    rcases announce_cases block.round b fx with ⟨hlt, -⟩ | hannounced
    · exact absurd (Nat.le_of_lt hlt) h
    · exact .inr hannounced

/-- A ticket that has landed is announced by the end of its range. -/
theorem announceLanded_eq {k : Ticket} {newBase : Round} (h : k.range.newBase = .ok newBase)
    (b : Bulletin) (fx : Effects) : announceLanded k (b, fx) = announce newBase (b, fx) := by
  unfold announceLanded Ticket.newBase
  rw [h]

end Bulletin

namespace Member

variable {γ : Type}

/-- The bulletins are what they were; tails and guests may be anything. -/
inductive SameBoards : Member γ → Member γ → Prop
  | memory (b : Bulletin) : SameBoards (memory b) (memory b)
  | durable (b : Bulletin) : SameBoards (durable b) (durable b)
  | tail (t t' : Tail) : SameBoards (tail t) (tail t')
  | guest (g g' : γ) : SameBoards (guest g) (guest g')

theorem Steady.sameBoards {t u : Member γ} (h : t.Steady u) : t.SameBoards u := by
  cases h with
  | memory b => exact .memory b
  | durable b => exact .durable b
  | tail t staged => exact .tail t _
  | guest g g' => exact .guest g g'

variable [Guest γ]

/-- While readers are held back no bulletin says anything. -/
theorem sameBoards_notice {n : Notice} (h : n ≠ .released) (k : Ticket) (t : Member γ)
    (fx : Effects) :
    t.SameBoards (notice n k (t, fx)).2.1 ∧ (notice n k (t, fx)).2.2.signals = fx.signals := by
  by_cases hlanded : n = .landed
  · subst hlanded
    cases t with
    | memory b => exact ⟨.memory b, rfl⟩
    | durable b => exact ⟨.durable b, rfl⟩
    | tail t =>
      cases h : t.advance k.range <;> simp only [notice, h] <;> exact ⟨.tail _ _, trivial⟩
    | guest g => exact ⟨.guest g _, rfl⟩
  · obtain ⟨hsteady, hsignals⟩ := steady_notice hlanded h k t fx
    exact ⟨hsteady.sameBoards, hsignals⟩

theorem sameBoards_close (t : Member γ) (fx : Effects) :
    t.SameBoards (close (t, fx)).2.1 ∧ (close (t, fx)).2.2.signals = fx.signals := by
  cases t with
  | memory b => exact ⟨.memory b, rfl⟩
  | durable b => exact ⟨.durable b, rfl⟩
  | tail t => exact ⟨.tail t _, rfl⟩
  | guest g => exact ⟨.guest g _, rfl⟩

end Member

namespace Pipeline

/-- What every answer keeps, of the tracker that gives it and of the effects, a question to all
trackers keeps. -/
theorem ask_forall {τ ε : Type} {p : Pipeline τ} {a : Act ε (τ × Effects) Unit}
    {G : τ → Prop} {I : SignalBoard → Prop}
    (h : ∀ t fx, G t → I fx.signals →
      G (a (t, fx)).2.1 ∧ I (a (t, fx)).2.2.signals)
    (htrackers : ∀ t ∈ p.trackers, G t) (hsignals : I p.effects.signals) :
    (∀ t ∈ (p.ask a).2.trackers, G t) ∧ I (p.ask a).2.effects.signals :=
  sweep_forall (I := fun fx : Effects => I fx.signals) h p.trackers htrackers hsignals

/-- Closing is a question to all trackers, with a line of the log if all of them answer. -/
theorem close_cases {τ : Type} [Tracker τ] (p : Pipeline τ) :
    p.close.2 = (p.ask Tracker.close).2 ∨ p.close.2 = (p.ask Tracker.close).2.log .closed := by
  unfold close
  split
  · next h => exact .inl (by rw [h])
  · next h => exact .inr (by rw [h])

variable {γ : Type} [Guest γ] {q : Pipeline (Member γ)}

/-- What is told of a landed cycle: first that it landed, and if nobody was cut short in hearing
that, that readers are let in again. -/
theorem settleLanded_cases {τ : Type} [Tracker τ] {q : Pipeline τ} (newBase : Round) (k : Ticket) :
    ∃ p₁, ({ q with durable := newBase, flushed := true } : Pipeline τ).tell .landed
        { k with flushed := true } = p₁ ∧
      ((∃ f, p₁.1 = .error f ∧
          q.settleLanded newBase k = (.error (.fault f), { k with flushed := true }, p₁.2)) ∨
        p₁.1 = .ok () ∧ ∃ p₂, p₁.2.tell .released { k with flushed := true } = p₂ ∧
          ((∃ f, p₂.1 = .error f ∧
              q.settleLanded newBase k = (.error (.fault f), { k with flushed := true }, p₂.2)) ∨
            p₂.1 = .ok () ∧
              q.settleLanded newBase k = (.ok (.landed newBase), { k with flushed := true },
                p₂.2.log (.landed newBase k.committed)))) := by
  refine ⟨_, rfl, ?_⟩
  unfold settleLanded
  simp only
  split
  · next f p₁ h => exact .inl ⟨f, congrArg Prod.fst h, by rw [h]⟩
  · next p₁ h =>
    refine .inr ⟨congrArg Prod.fst h, _, rfl, ?_⟩
    rw [h]
    split
    · next f p₂ h' => exact .inl ⟨f, congrArg Prod.fst h', by rw [h']⟩
    · next p₂ h' => exact .inr ⟨congrArg Prod.fst h', by rw [h']⟩

/-- Whoever hears of a landed cycle, the pipeline is at the new durable round and the store is left
alone. -/
theorem settleLanded_frame {τ : Type} [Tracker τ] {q : Pipeline τ} (newBase : Round) (k : Ticket) :
    (q.settleLanded newBase k).2.2.store = q.store ∧
      (q.settleLanded newBase k).2.2.durable = newBase ∧
      (q.settleLanded newBase k).2.2.loaded = q.loaded := by
  obtain ⟨p₁, rfl, ⟨f, -, heq⟩ | ⟨-, p₂, rfl, ⟨f, -, heq⟩ | ⟨-, heq⟩⟩⟩ :=
    settleLanded_cases (q := q) newBase k <;> rw [heq] <;> exact ⟨rfl, rfl, rfl⟩

/-- What the trackers keep while they are told of a landed cycle. -/
theorem settleLanded_forall {G : Member γ → Prop} {I : SignalBoard → Prop} {newBase : Round}
    {k : Ticket}
    (hlanded : ∀ t fx, G t → I fx.signals →
      G (Member.notice .landed { k with flushed := true } (t, fx)).2.1 ∧
        I (Member.notice .landed { k with flushed := true } (t, fx)).2.2.signals)
    (hreleased : ∀ t fx, G t → I fx.signals →
      G (Member.notice .released { k with flushed := true } (t, fx)).2.1 ∧
        I (Member.notice .released { k with flushed := true } (t, fx)).2.2.signals)
    (htrackers : ∀ t ∈ q.trackers, G t) (hsignals : I q.effects.signals) :
    (∀ t ∈ (q.settleLanded newBase k).2.2.trackers, G t) ∧
      I (q.settleLanded newBase k).2.2.effects.signals := by
  have hfirst := ask_forall (p := { q with durable := newBase, flushed := true }) hlanded
    htrackers hsignals
  have hsecond := ask_forall hreleased hfirst.1 hfirst.2
  obtain ⟨p₁, rfl, ⟨f, -, heq⟩ | ⟨-, p₂, rfl, ⟨f, -, heq⟩ | ⟨-, heq⟩⟩⟩ :=
    settleLanded_cases (q := q) newBase k <;> rw [heq]
  · exact hfirst
  · exact hsecond
  · exact hsecond

/-- What the trackers have after they were told of a landed cycle, if none of them was cut short: to
hear that it landed leads from `G` to `H`, and to hear that readers are let in leads on to `K`. -/
theorem settleLanded_forall_of_ok {G H K : Member γ → Prop} {newBase : Round} {k : Ticket}
    (hlanded : ∀ t fx, G t →
      (Member.notice .landed { k with flushed := true } (t, fx)).1 = .ok () →
        H (Member.notice .landed { k with flushed := true } (t, fx)).2.1)
    (hreleased : ∀ t fx, H t →
      (Member.notice .released { k with flushed := true } (t, fx)).1 = .ok () →
        K (Member.notice .released { k with flushed := true } (t, fx)).2.1)
    (hok : (q.settleLanded newBase k).1 = .ok (.landed newBase))
    (htrackers : ∀ t ∈ q.trackers, G t) :
    ∀ t ∈ (q.settleLanded newBase k).2.2.trackers, K t := by
  obtain ⟨p₁, rfl, ⟨f, -, heq⟩ | ⟨hfirst, p₂, rfl, ⟨f, -, heq⟩ | ⟨hsecond, heq⟩⟩⟩ :=
    settleLanded_cases (q := q) newBase k <;> rw [heq] at hok ⊢
  -- Of the three ways this may end only the last one is a landing.
  · exact nomatch hok
  · exact nomatch hok
  have htold := (sweep_forall_of_ok (I := fun _ : Effects => True)
    (fun t fx ht _ hanswer => ⟨hlanded t fx ht hanswer, trivial⟩) q.trackers htrackers trivial
    hfirst).1
  exact (sweep_forall_of_ok (I := fun _ : Effects => True)
    (fun t fx ht _ hanswer => ⟨hreleased t fx ht hanswer, trivial⟩) _ htold trivial hsecond).1

end Pipeline

end CommitPipeline
