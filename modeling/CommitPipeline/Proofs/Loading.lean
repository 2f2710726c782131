import CommitPipeline.Pipeline.Load
import CommitPipeline.Proofs.Boards

/-!
# How loads end

A load asks every tracker to start from the store and then replays blocks. The lemmas of this module
say where it can stop on the way, and what it keeps wherever it stops.
-/

namespace CommitPipeline.Pipeline

variable {τ : Type} [Tracker τ] {p : Pipeline τ}

/-- What a gap in the ledger and blocks keep, a replay keeps. -/
theorem replay_preserves {I : Pipeline τ → Prop}
    (hlog : ∀ p r, I p → I (p.log (.blockMissing r)))
    (hblock : ∀ p block delta, I p → I (p.newBlock block delta).2) (ledger : LedgerView)
    (count : Nat) (r : Round) (hp : I p) : I (p.replay ledger count r).2 := by
  -- By induction on the blocks still to come; a gap and a fault end the replay early.
  induction count generalizing r p with
  | zero => exact hp
  | succ count ih =>
    unfold replay
    cases ledger.block r with
    | none => exact hlog p _ hp
    | some entry =>
      obtain ⟨block, delta⟩ := entry
      have hnext := hblock p block delta hp
      simp only
      rcases h : p.newBlock block delta with ⟨f | _, q⟩ <;> rw [h] at hnext
      · exact hnext
      · cases r.next with
        | error f => exact hnext
        | ok following =>
          have hrest := ih following hnext
          simp only
          rcases h : q.replay ledger count following with ⟨f | handed, q'⟩ <;> rw [h] at hrest
          · exact hrest
          · exact hrest

/-- What a gap in the ledger and blocks keep, the replay of a load keeps. -/
theorem replayAbove_preserves {I : Pipeline τ → Prop}
    (hlog : ∀ p r, I p → I (p.log (.blockMissing r)))
    (hblock : ∀ p block delta, I p → I (p.newBlock block delta).2) (ledger : LedgerView)
    (durable : Round) (hp : I p) : I (p.replayAbove ledger durable).2 := by
  unfold replayAbove
  cases durable.next with
  | error f => exact hp
  | ok first => exact replay_preserves hlog hblock ledger _ first hp

/-- Where a load ends: at a store ahead of the ledger, at a tracker, in the replay, or well. -/
theorem load_cases (ledger : LedgerView) (p : Pipeline τ) :
    (ledger.latest < p.store.round ∧
      p.load ledger = (.error (.error (.storeAhead p.store.round ledger.latest)), p)) ∨
    ∃ p₁, p.ask (Tracker.load ledger p.store p.store.round) = p₁ ∧
      ((∃ stop, p.load ledger = (.error stop, p₁.2)) ∨
        p₁.1 = .ok () ∧ ∃ p₂, p₁.2.replayAbove ledger p.store.round = p₂ ∧
          ((∃ stop, p.load ledger = (.error stop, p₂.2)) ∨
            ∃ replayed, p₂.1 = .ok replayed ∧
              p.load ledger = (.ok (),
                ({ p₂.2 with durable := p.store.round, loaded := true } : Pipeline τ).log
                  (.loaded p.store.round ledger.latest replayed)))) := by
  unfold load
  simp only
  split
  · next h => exact .inl ⟨h, rfl⟩
  refine .inr ⟨_, rfl, ?_⟩
  split
  · next stop p₁ h => exact .inl ⟨stop, by rw [h]⟩
  next p₁ h =>
  refine .inr ⟨congrArg Prod.fst h, _, rfl, ?_⟩
  rw [h]
  split
  · next f p₂ h' => exact .inl ⟨.fault f, by rw [h']⟩
  · next replayed p₂ h' => exact .inr ⟨replayed, congrArg Prod.fst h', by rw [h']⟩

/-- What the questions of a load, the gaps and the blocks of its replay and its end keep, a load
keeps. -/
theorem load_preserves {I : Pipeline τ → Prop} {ledger : LedgerView} (hp : I p)
    (hask : I (p.ask (Tracker.load ledger p.store p.store.round)).2)
    (hlog : ∀ p r, I p → I (p.log (.blockMissing r)))
    (hblock : ∀ p block delta, I p → I (p.newBlock block delta).2)
    (hend : ∀ q replayed, I q →
      I (({ q with durable := p.store.round, loaded := true } : Pipeline τ).log
        (.loaded p.store.round ledger.latest replayed))) : I (p.load ledger).2 := by
  have hreplay := replayAbove_preserves hlog hblock ledger p.store.round hask
  obtain ⟨-, heq⟩ | ⟨p₁, rfl, ⟨stop, heq⟩ | ⟨-, p₂, rfl, ⟨stop, heq⟩ | ⟨replayed, -, heq⟩⟩⟩ :=
    load_cases ledger p <;> rw [heq]
  · exact hp
  · exact hask
  · exact hreplay
  · exact hend _ replayed hreplay

/-- A load that ends well: every tracker has started, and every block was replayed. -/
theorem steps_of_load {ledger : LedgerView} {q : Pipeline τ} (h : p.load ledger = (.ok (), q)) :
    p.store.round ≤ ledger.latest ∧ ∃ p₁ p₂ replayed,
      p.ask (Tracker.load ledger p.store p.store.round) = (.ok (), p₁) ∧
        p₁.replayAbove ledger p.store.round = (.ok replayed, p₂) ∧
        q = ({ p₂ with durable := p.store.round, loaded := true } : Pipeline τ).log
          (.loaded p.store.round ledger.latest replayed) := by
  have hbehind : p.store.round ≤ ledger.latest := by
    by_contra hahead
    have hahead : ledger.latest < p.store.round := Nat.lt_of_not_le hahead
    rw [load, if_pos hahead] at h
    cases congrArg Prod.fst h
  refine ⟨hbehind, ?_⟩
  obtain ⟨-, heq⟩ | ⟨p₁, rfl, ⟨stop, heq⟩ | ⟨hok, p₂, rfl, ⟨stop, heq⟩ | ⟨replayed, hok', heq⟩⟩⟩ :=
    load_cases ledger p <;> rw [heq] at h
  · cases congrArg Prod.fst h
  · cases congrArg Prod.fst h
  · cases congrArg Prod.fst h
  · exact ⟨_, _, replayed, Prod.ext hok rfl, Prod.ext hok' rfl, (congrArg Prod.snd h).symm⟩

/-- A load leaves the store alone. It settles the durable round if it ends well, and leaves that
alone if it does not. -/
theorem load_frame (ledger : LedgerView) (p : Pipeline τ) :
    (p.load ledger).2.store = p.store ∧
      (((p.load ledger).1 = .ok () ∧ (p.load ledger).2.durable = p.store.round ∧
          (p.load ledger).2.loaded) ∨
        ((p.load ledger).1 ≠ .ok () ∧ (p.load ledger).2.durable = p.durable ∧
          (p.load ledger).2.loaded = p.loaded)) := by
  have hreplay : ∀ p₁ : Pipeline τ,
      (p₁.replayAbove ledger p.store.round).2.store = p₁.store ∧
        (p₁.replayAbove ledger p.store.round).2.durable = p₁.durable ∧
        (p₁.replayAbove ledger p.store.round).2.loaded = p₁.loaded := by
    intro p₁
    exact replayAbove_preserves
      (I := fun q => q.store = p₁.store ∧ q.durable = p₁.durable ∧ q.loaded = p₁.loaded)
      (fun _ _ h => h) (fun _ _ _ h => h) ledger _ ⟨rfl, rfl, rfl⟩
  -- Durable round and mark are set behind the replay, so an early end leaves both alone.
  obtain ⟨-, heq⟩ | ⟨p₁, rfl, ⟨stop, heq⟩ | ⟨-, p₂, rfl, ⟨stop, heq⟩ | ⟨replayed, -, heq⟩⟩⟩ :=
    load_cases ledger p <;> rw [heq]
  · exact ⟨rfl, .inr ⟨nofun, rfl, rfl⟩⟩
  · exact ⟨rfl, .inr ⟨nofun, rfl, rfl⟩⟩
  · obtain ⟨hstore, hdurable, hloaded⟩ := hreplay _
    exact ⟨hstore, .inr ⟨nofun, hdurable, hloaded⟩⟩
  · exact ⟨(hreplay _).1, .inl ⟨rfl, rfl, rfl⟩⟩

/-- What the trackers keep when they start from the store and when they take a block, a load
keeps. -/
theorem load_forall {G : τ → Prop} {I : SignalBoard → Prop} {ledger : LedgerView}
    (hload : ∀ t fx, G t → I fx.signals →
      G (Tracker.load ledger p.store p.store.round (t, fx)).2.1 ∧
        I (Tracker.load ledger p.store p.store.round (t, fx)).2.2.signals)
    (hblock : ∀ block delta t fx, G t → I fx.signals →
      G (Tracker.newBlock block delta (t, fx)).2.1 ∧
        I (Tracker.newBlock block delta (t, fx)).2.2.signals)
    (htrackers : ∀ t ∈ p.trackers, G t) (hsignals : I p.effects.signals) :
    (∀ t ∈ (p.load ledger).2.trackers, G t) ∧ I (p.load ledger).2.effects.signals := by
  refine load_preserves (I := fun q => (∀ t ∈ q.trackers, G t) ∧ I q.effects.signals)
    ⟨htrackers, hsignals⟩ (ask_forall hload htrackers hsignals) ?_ ?_ ?_
  · intro _ _ h
    exact h
  · intro _ block delta h
    exact ask_forall (hblock block delta) h.1 h.2
  · intro _ _ h
    exact h

/-- What every tracker has that started from the store, and keeps when it takes a block, all
trackers have after a load that ended well. -/
theorem load_forall_of_ok {H : τ → Prop} {ledger : LedgerView} {q : Pipeline τ}
    (hload : ∀ t fx, H (Tracker.load ledger p.store p.store.round (t, fx)).2.1)
    (hblock : ∀ block delta t fx, H t → H (Tracker.newBlock block delta (t, fx)).2.1)
    (h : p.load ledger = (.ok (), q)) : ∀ t ∈ q.trackers, H t := by
  obtain ⟨-, p₁, p₂, replayed, hasked, hreplayed, rfl⟩ := steps_of_load h
  have hask : ∀ t ∈ p₁.trackers, H t := by
    obtain rfl := congrArg Prod.snd hasked
    exact (sweep_forall_of_ok (G := fun _ => True) (H := H) (I := fun _ => True)
      (fun t fx _ _ _ => ⟨hload t fx, trivial⟩) p.trackers (fun _ _ => trivial) trivial
      (congrArg Prod.fst hasked)).1
  have hreplay := replayAbove_preserves (I := fun r : Pipeline τ => ∀ t ∈ r.trackers, H t)
    (fun _ _ h => h)
    (fun r block delta h => (ask_forall (I := fun _ => True)
      (fun t fx ht _ => ⟨hblock block delta t fx ht, trivial⟩) h trivial).1)
    ledger p.store.round hask
  rw [hreplayed] at hreplay
  exact hreplay

end CommitPipeline.Pipeline
