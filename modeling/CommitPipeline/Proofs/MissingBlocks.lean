import Mathlib.Order.Bounds.Defs
import CommitPipeline.Proofs.Abreast
import CommitPipeline.Proofs.Hooks

/-!
# What a load hands to the trackers

A load asks every tracker to start at the durable round of the store, then hands the blocks that
the ledger holds beyond that round to all of them, up to the first round that is missing. To see
who is handed what, and in which order, trackers are put behind labels once more: a label notes
every call of a load before the tracker answers, and keeps the blocks that came by.

The module introduces:

* `Receptive` — trackers that are not cut short when they take a block;
* `Listener` — a tracker behind a label;
* `LedgerView.run` — the blocks a ledger holds from a round on, up to the first gap;
* `LedgerView.ReplayEnd` — the round that a replay comes to;
* `Pipeline.replay_run` — a replay hands on the blocks of a run, whatever is kept with them;
* `Pipeline.Heard` — what the listeners of a pipeline heard between two states;
* `load_hands_on_missing` — the three ends of a load.
-/

namespace CommitPipeline

/-- Trackers that are not cut short when they take a block. -/
class Receptive (τ : Type) [Tracker τ] : Prop where
  /-- Whatever block they are handed, they answer. -/
  newBlock_ok : ∀ (block : Block) (delta : Delta) (t : τ) (fx : Effects),
    (Tracker.newBlock block delta (t, fx)).1 = .ok ()

instance {γ : Type} [Guest γ] [TakesBlocks γ] : Receptive (Member γ) where
  newBlock_ok block delta t fx := by
    cases t with
    | memory b =>
      show (Bulletin.announceBlock block (b, fx)).1 = .ok ()
      rcases Bulletin.announceBlock_cases block b fx with ⟨-, heq⟩ | ⟨hok, -⟩
      · rw [heq]
      · exact hok
    | durable b => rfl
    | tail u => rfl
    | guest g => exact TakesBlocks.newBlock_ok block delta g

/-! ## Listeners -/

/-- A tracker behind a label. -/
structure Listener (τ : Type) where
  /-- The label that its calls are noted under. -/
  label : String
  /-- The tracker. -/
  inner : τ
  /-- The blocks it was handed, oldest first. -/
  taken : List (Block × Delta) := []

namespace Listener

variable {τ : Type} [Tracker τ]

/-- Asks the tracker behind a label. The journal is the given one, whatever the tracker reports. -/
def via {ε α : Type} (journal : Journal) (act : Act ε (τ × Effects) α) (l : Listener τ)
    (fx : Effects) : Except ε α × Listener τ × Effects :=
  let (result, inner, fx) := act (l.inner, fx)
  (result, { l with inner }, { fx with journal })

/-- A block is noted and kept before the tracker takes it. -/
def newBlock (block : Block) (delta : Delta) : Act Fault (Listener τ × Effects) Unit
  | (l, fx) =>
    via (fx.noteCall l.label (.newBlock block.round delta.round)).journal
      (Tracker.newBlock block delta) { l with taken := l.taken ++ [(block, delta)] } fx

instance : Tracker (Listener τ) where
  name l := Tracker.name l.inner
  load ledger s r
    | (l, fx) => via (fx.noteCall l.label (.load r ledger.latest)).journal
        (Tracker.load ledger s r) l fx
  newBlock := newBlock
  need committed
    | (l, fx) => via fx.journal (Tracker.need committed) l fx
  refine committed durable range
    | (l, fx) => via fx.journal (Tracker.refine committed durable range) l fx
  prepare
    | (l, fx, k) =>
      let (result, inner, fx', k) := Tracker.prepare (l.inner, fx, k)
      (result, { l with inner }, { fx' with journal := fx.journal }, k)
  write
    | (l, fx, k, s) =>
      let (result, inner, fx', k, s) := Tracker.write (l.inner, fx, k, s)
      (result, { l with inner }, { fx' with journal := fx.journal }, k, s)
  notice n k
    | (l, fx) => via fx.journal (Tracker.notice n k) l fx
  close
    | (l, fx) => via fx.journal Tracker.close l fx

instance [Receptive τ] : Receptive (Listener τ) where
  newBlock_ok block delta l fx := Receptive.newBlock_ok block delta l.inner fx

end Listener

@[simp]
theorem Journal.calls_noteCall (fx : Effects) (label : String) (c : Call) :
    (fx.noteCall label c).journal.calls = fx.journal.calls ++ [(label, c)] := by
  simp [Effects.noteCall, calls]

@[simp]
theorem Journal.calls_log (fx : Effects) (e : Event) :
    (fx.log e).journal.calls = fx.journal.calls := by
  simp [Effects.log, calls]

@[simp]
theorem Journal.events_noteCall (fx : Effects) (label : String) (c : Call) :
    (fx.noteCall label c).journal.events = fx.journal.events := by
  simp [Effects.noteCall, events]

@[simp]
theorem Journal.events_log (fx : Effects) (e : Event) :
    (fx.log e).journal.events = fx.journal.events ++ [e] := by
  simp [Effects.log, events]

/-! ## The blocks of a replay -/

namespace LedgerView

variable {ledger : LedgerView} {durable m : Round}

/-- The blocks that a ledger holds of at most `count` consecutive rounds, up to the first gap. -/
def run (ledger : LedgerView) : (count : Nat) → (first : Nat) → List (Block × Delta)
  | 0, _ => []
  | count + 1, first =>
    match ledger.block (.ofNat first) with
    | none => []
    | some entry => entry :: run ledger count (first + 1)

/-- A ledger that is not at the last round has room for the replay of all its blocks above a durable
round that is not ahead of it. -/
theorem exists_first (hlatest : ledger.latest.toNat + 1 < Round.limit)
    (hbehind : durable ≤ ledger.latest) :
    ∃ first, durable.next = .ok first ∧ first.toNat = durable.toNat + 1 ∧
      first.toNat + (ledger.latest.since durable).toNat < Round.limit := by
  have hle : durable.toNat ≤ ledger.latest.toNat := hbehind
  obtain ⟨first, hfirst⟩ := Round.exists_next (r := durable) (by omega)
  have hnumber := Round.next_eq_ok_iff.mp hfirst
  refine ⟨first, hfirst, hnumber.symm, ?_⟩
  rw [Round.toNat_since]
  omega

theorem length_run_le (count first : Nat) : (ledger.run count first).length ≤ count := by
  induction count generalizing first with
  | zero => exact Nat.le_refl _
  | succ count ih =>
    rw [run]
    split
    · exact Nat.zero_le _
    · exact Nat.succ_le_succ (ih _)

/-- A run has the blocks of consecutive rounds, each once. -/
theorem map_some_run (count first : Nat) :
    (ledger.run count first).map some =
      (List.range' first (ledger.run count first).length).map fun n => ledger.block (.ofNat n) := by
  induction count generalizing first with
  | zero => rfl
  | succ count ih =>
    rw [run]
    split
    · rfl
    · next entry hentry =>
      rw [List.length_cons, List.range'_succ, List.map_cons, List.map_cons, hentry, ih]

/-- A run that is shorter than it may be ends at a gap. -/
theorem block_of_length_run_lt {count first : Nat}
    (h : (ledger.run count first).length < count) :
    ledger.block (.ofNat (first + (ledger.run count first).length)) = none := by
  induction count generalizing first with
  | zero => exact absurd h (Nat.not_lt_zero _)
  | succ count ih =>
    rw [run] at h ⊢
    split at h
    · next hnone => simp [hnone]
    · next entry hentry =>
      have hrest := ih (Nat.lt_of_succ_lt_succ h)
      rw [List.length_cons]
      rwa [Nat.add_comm _ 1, ← Nat.add_assoc]

/-- What is reported of a run: the first round that is missing, if the run is shorter than it may
be. -/
def gap (ledger : LedgerView) (count first : Nat) : List Event :=
  if (ledger.run count first).length = count then []
  else [.blockMissing (.ofNat (first + (ledger.run count first).length))]

/-- The round that a replay above the durable round comes to: up to the latest round of the ledger,
the last one such that the ledger holds the blocks of all rounds between. -/
def ReplayEnd (ledger : LedgerView) (durable m : Round) : Prop :=
  IsGreatest {r | durable ≤ r ∧ r ≤ ledger.latest ∧
    ∀ s, durable < s → s ≤ r → (ledger.block s).isSome} m

/-- The blocks of the rounds above one and up to another, each once and in ascending order. -/
def BlocksBetween (ledger : LedgerView) (durable m : Round) (blocks : List (Block × Delta)) :
    Prop :=
  blocks.map some =
    (List.range' (durable.toNat + 1) (m.toNat - durable.toNat)).map fun n => ledger.block (.ofNat n)

/-- A replay comes to a round below which nothing is missing, if the next round is missing or above
the latest one. -/
theorem replayEnd_of_gap (hlow : durable ≤ m) (hhigh : m ≤ ledger.latest)
    (hheld : ∀ r, durable < r → r ≤ m → (ledger.block r).isSome)
    (hgap : m < ledger.latest → ledger.block (.ofNat (m.toNat + 1)) = none) :
    ledger.ReplayEnd durable m := by
  refine ⟨⟨hlow, hhigh, hheld⟩, ?_⟩
  rintro r ⟨-, hlatest, hheld'⟩
  by_contra hbeyond
  rw [Round.le_def] at hlow hbeyond hlatest
  have hroom := ledger.latest.toNat_lt
  have hnext : (Round.ofNat (m.toNat + 1)).toNat = m.toNat + 1 :=
    Round.toNat_ofNat_of_lt (by omega)
  have hsome := hheld' (.ofNat (m.toNat + 1)) (by rw [Round.lt_def, hnext]; omega)
    (by rw [Round.le_def, hnext]; omega)
  rw [hgap (by rw [Round.lt_def]; omega)] at hsome
  cases hsome

theorem ReplayEnd.unique {m' : Round} (h : ledger.ReplayEnd durable m)
    (h' : ledger.ReplayEnd durable m') : m = m' :=
  Round.ext_toNat (Nat.le_antisymm (h'.2 h.1) (h.2 h'.1))

/-- The run above the durable round ends at the round that a replay comes to. -/
theorem exists_replayEnd (hbehind : durable ≤ ledger.latest) :
    ∃ m, ledger.ReplayEnd durable m ∧
      ledger.BlocksBetween durable m
        (ledger.run (ledger.latest.toNat - durable.toNat) (durable.toNat + 1)) := by
  have hbehind : durable.toNat ≤ ledger.latest.toNat := hbehind
  have hlatest := ledger.latest.toNat_lt
  have hlength := ledger.length_run_le (ledger.latest.toNat - durable.toNat) (durable.toNat + 1)
  have hsome := ledger.map_some_run (ledger.latest.toNat - durable.toNat) (durable.toNat + 1)
  have hgap : (ledger.run (ledger.latest.toNat - durable.toNat) (durable.toNat + 1)).length <
      ledger.latest.toNat - durable.toNat → _ := ledger.block_of_length_run_lt
  generalize ledger.run _ _ = blocks at hlength hsome hgap ⊢
  have hm : (Round.ofNat (durable.toNat + blocks.length)).toNat = durable.toNat + blocks.length :=
    Round.toNat_ofNat_of_lt (by omega)
  refine ⟨.ofNat (durable.toNat + blocks.length), replayEnd_of_gap ?_ ?_ ?_ ?_, ?_⟩
  · rw [Round.le_def, hm]
    exact Nat.le_add_right _ _
  · rw [Round.le_def, hm]
    omega
  -- The block of a round in the run is one of the run.
  · intro r habove hupto
    rw [Round.lt_def] at habove
    rw [Round.le_def, hm] at hupto
    have hmem : ledger.block r ∈ blocks.map some := by
      rw [hsome, List.mem_map]
      exact ⟨r.toNat, by rw [List.mem_range'_1]; omega, by rw [Round.ofNat_toNat]⟩
    obtain ⟨entry, -, hentry⟩ := List.mem_map.mp hmem
    rw [← hentry]
    rfl
  · intro hshort
    rw [Round.lt_def, hm] at hshort
    rw [hm, Nat.add_right_comm]
    exact hgap (by omega)
  · rw [BlocksBetween, hm, Nat.add_sub_cancel_left]
    exact hsome

end LedgerView

namespace Pipeline

variable {τ : Type} [Tracker τ] [Receptive τ]

/-- Whatever block is delivered, all trackers take it. -/
theorem newBlock_ok (block : Block) (delta : Delta) (p : Pipeline τ) :
    (p.newBlock block delta).1 = .ok () :=
  (sweep_of_forall_ok (G := fun _ => True) (H := fun _ => True)
    (fun t fx _ => ⟨Receptive.newBlock_ok block delta t fx, trivial⟩) p.trackers p.effects
    fun _ _ => trivial).1

/-- A replay that cannot run out of rounds hands the blocks of a run on, one by one: what is kept
with every block handed on is there with all of them at the end. If the run is shorter than it may
be, the gap behind it is reported. -/
theorem replay_run (ledger : LedgerView) {I : List (Block × Delta) → Pipeline τ → Prop}
    (hblock : ∀ q blocks block delta, I blocks q →
      I (blocks ++ [(block, delta)]) (q.newBlock block delta).2)
    {count : Nat} {first : Round} (hroom : first.toNat + count < Round.limit)
    (p : Pipeline τ) (done : List (Block × Delta)) (hp : I done p) :
    (p.replay ledger count first).1 = .ok (ledger.run count first.toNat).length ∧
      ∃ q, I (done ++ ledger.run count first.toNat) q ∧
        (p.replay ledger count first).2 =
          if (ledger.run count first.toNat).length = count then q
          else q.log (.blockMissing (.ofNat (first.toNat +
            (ledger.run count first.toNat).length))) := by
  -- By induction on the rounds still to come; `done` are the blocks of those before.
  induction count generalizing first p done with
  | zero => exact ⟨rfl, p, (List.append_nil done).symm ▸ hp, rfl⟩
  | succ count ih =>
    unfold replay
    rw [LedgerView.run, Round.ofNat_toNat]
    cases hentry : ledger.block first with
    | none =>
      refine ⟨rfl, p, (List.append_nil done).symm ▸ hp, ?_⟩
      simp [Round.ofNat_toNat]
    | some entry =>
      obtain ⟨block, delta⟩ := entry
      obtain ⟨following, hnext⟩ := Round.exists_next (r := first) (by omega)
      have hfollowing := Round.next_eq_ok_iff.mp hnext
      have hroom' : following.toNat + count < Round.limit := by omega
      have hkept := hblock p done block delta hp
      have htaken := newBlock_ok block delta p
      simp only
      rcases h : p.newBlock block delta with ⟨f | _, q⟩ <;> rw [h] at hkept htaken
      · cases htaken
      obtain ⟨hhanded, q', hrest, hends⟩ := ih hroom' q _ hkept
      simp only [hnext]
      rw [hfollowing]
      rcases h' : q.replay ledger count following with ⟨f | handed, q''⟩ <;>
        rw [h'] at hhanded hends
      · cases hhanded
      rw [List.append_assoc] at hrest
      refine ⟨?_, q', hrest, ?_⟩
      · rw [Except.ok.inj hhanded]
        rfl
      · simp only [List.length_cons, Nat.succ_inj, ← Nat.add_assoc, Nat.add_right_comm _ _ 1,
          hfollowing]
        exact hends

end Pipeline

/-! ## What listeners hear -/

/-- Where nobody stops a sweep and every answer changes what is read off a tracker in one way, the
sweep changes it so for every tracker. -/
theorem sweep_map_of_ok {τ κ ε β : Type} (ask : Act ε (τ × κ) Unit) (read : τ → β)
    (change : β → β) (hok : ∀ t c, (ask (t, c)).1 = .ok ())
    (hread : ∀ t c, read (ask (t, c)).2.1 = change (read t)) (trackers : List τ) (c : κ) :
    (sweep ask trackers c).1 = .ok () ∧
      (sweep ask trackers c).2.1.map read = (trackers.map read).map change := by
  induction trackers generalizing c with
  | nil => exact ⟨rfl, rfl⟩
  | cons t rest ih =>
    have hanswer := hok t c
    have hchanged := hread t c
    rcases hask : ask (t, c) with ⟨e | _, t', c'⟩ <;> rw [hask] at hanswer hchanged
    · cases hanswer
    · obtain ⟨hlater, hmapped⟩ := ih c'
      rw [sweep_cons_of_ok rest hask]
      exact ⟨hlater, List.cons_eq_cons.mpr ⟨hchanged, hmapped⟩⟩

namespace Pipeline

variable {τ : Type} {p q r : Pipeline (Listener τ)}

/-- The labels of the listeners, in the order in which they are asked. -/
def labels (p : Pipeline (Listener τ)) : List String := p.trackers.map Listener.label

/-- The blocks each of the listeners was handed so far. -/
def taken (p : Pipeline (Listener τ)) : List (List (Block × Delta)) :=
  p.trackers.map Listener.taken

/-- The calls noted so far. -/
def calls (p : Pipeline (Listener τ)) : List (String × Call) := p.effects.journal.calls

/-- What the pipeline reported so far; the trackers behind the labels report nothing. -/
def events (p : Pipeline (Listener τ)) : List Event := p.effects.journal.events

/-- From `p` to `q` the listeners were called so often, and each was handed the given blocks. -/
structure Heard (calls : List (String × Call)) (blocks : List (Block × Delta))
    (p q : Pipeline (Listener τ)) : Prop where
  labels : q.labels = p.labels
  calls : q.calls = p.calls ++ calls
  taken : q.taken = p.taken.map (· ++ blocks)

namespace Heard

variable {calls calls' : List (String × Call)} {blocks blocks' : List (Block × Delta)}

@[refl]
theorem refl (p : Pipeline (Listener τ)) : Heard [] [] p p :=
  ⟨rfl, (List.append_nil _).symm, by simp⟩

theorem trans (h : Heard calls blocks p q) (h' : Heard calls' blocks' q r) :
    Heard (calls ++ calls') (blocks ++ blocks') p r where
  labels := h'.labels.trans h.labels
  calls := by rw [h'.calls, h.calls, List.append_assoc]
  taken := by
    rw [h'.taken, h.taken, List.map_map]
    congr 1
    funext taken
    exact List.append_assoc ..

theorem log (h : Heard calls blocks p q) (e : Event) : Heard calls blocks p (q.log e) :=
  ⟨h.labels, (Journal.calls_log q.effects e).trans h.calls, h.taken⟩

end Heard

/-- A call of all trackers behind some labels. -/
def callAll (c : Call) (labels : List String) : List (String × Call) := labels.map fun l => (l, c)

/-- The calls by which blocks are handed to all trackers: block by block, and in the order of the
trackers for each. -/
def callBlocks (blocks : List (Block × Delta)) (labels : List String) : List (String × Call) :=
  blocks.flatMap fun (block, delta) => callAll (.newBlock block.round delta.round) labels

/-- Questions of which no line is reported leave the reports alone. -/
theorem events_ask {ε : Type} {a : Act ε (Listener τ × Effects) Unit}
    (h : ∀ l fx, (a (l, fx)).2.2.journal.events = fx.journal.events)
    (p : Pipeline (Listener τ)) : (p.ask a).2.events = p.events :=
  (sweep_forall (G := fun _ => True) (I := fun fx : Effects => fx.journal.events = p.events)
    (fun l fx _ hfx => ⟨trivial, (h l fx).trans hfx⟩) p.trackers (fun _ _ => trivial) rfl).2

variable [Tracker τ]

/-- To start at the store is asked of all listeners, or of those up to the one that stops. -/
theorem heard_load (ledger : LedgerView) (s : Store) (durable : Round)
    (p : Pipeline (Listener τ)) :
    ((p.ask (Tracker.load ledger s durable)).1 = .ok () ∧
        Heard (callAll (.load durable ledger.latest) p.labels) [] p
          (p.ask (Tracker.load ledger s durable)).2) ∨
      ∃ place stop, (p.ask (Tracker.load ledger s durable)).1 = .error stop ∧
        StopsAt (Tracker.load ledger s durable) p.trackers p.effects place stop ∧
        Heard (callAll (.load durable ledger.latest) (p.labels.take (place + 1))) [] p
          (p.ask (Tracker.load ledger s durable)).2 := by
  -- The label and the blocks of a listener make up the name that its answer keeps.
  obtain ⟨hnames, hheard⟩ := sweep_heard (Tracker.load ledger s durable)
    (fun l : Listener τ => (l.label, l.taken)) (fun fx : Effects => fx.journal.calls)
    (fun name => [(name.1, .load durable ledger.latest)]) (fun _ _ => rfl)
    (fun l fx => Journal.calls_noteCall fx l.label _) p.trackers p.effects
  have hlabels : (p.ask (Tracker.load ledger s durable)).2.labels = p.labels := by
    have h := congrArg (List.map Prod.fst) hnames
    rwa [List.map_map, List.map_map] at h
  have htaken : (p.ask (Tracker.load ledger s durable)).2.taken = p.taken.map (· ++ []) := by
    have h := congrArg (List.map Prod.snd) hnames
    rw [List.map_map, List.map_map] at h
    simp only [List.append_nil, List.map_id']
    exact h
  have hcalls : ∀ names : List (String × List (Block × Delta)),
      names.flatMap (fun name => [(name.1, Call.load durable ledger.latest)]) =
        callAll (.load durable ledger.latest) (names.map Prod.fst) := by
    intro names
    rw [← List.map_eq_flatMap, callAll, List.map_map]
    rfl
  simp only [hcalls, List.map_take, List.map_map] at hheard
  rcases hheard with ⟨hok, hnoted⟩ | ⟨place, stop, herror, hstops, hnoted⟩
  · exact .inl ⟨hok, hlabels, hnoted, htaken⟩
  · exact .inr ⟨place, stop, herror, hstops, hlabels, hnoted, htaken⟩

variable [Receptive τ]

/-- A block is handed to all listeners. -/
theorem heard_newBlock (block : Block) (delta : Delta) (p : Pipeline (Listener τ)) :
    (p.newBlock block delta).1 = .ok () ∧
      Heard (callBlocks [(block, delta)] p.labels) [(block, delta)] p
        (p.newBlock block delta).2 := by
  obtain ⟨hok, htaken⟩ := sweep_map_of_ok (Tracker.newBlock block delta) Listener.taken
    (· ++ [(block, delta)]) (Receptive.newBlock_ok block delta) (fun _ _ => rfl) p.trackers
    p.effects
  obtain ⟨hlabels, ⟨-, hnoted⟩ | ⟨place, f, herror, -⟩⟩ := sweep_heard
    (Tracker.newBlock block delta) Listener.label (fun fx : Effects => fx.journal.calls)
    (fun label => [(label, .newBlock block.round delta.round)]) (fun _ _ => rfl)
    (fun l fx => Journal.calls_noteCall fx l.label _) p.trackers p.effects
  · refine ⟨hok, hlabels, ?_, htaken⟩
    rw [← List.map_eq_flatMap] at hnoted
    rw [callBlocks, List.flatMap_singleton]
    exact hnoted
  · rw [hok] at herror
    cases herror

/-- A replay that cannot run out of rounds hands the blocks of a run to all listeners and reports
the gap behind them. -/
theorem heard_replay (ledger : LedgerView) {count : Nat} {first : Round}
    (hroom : first.toNat + count < Round.limit) (p : Pipeline (Listener τ)) :
    (p.replay ledger count first).1 = .ok (ledger.run count first.toNat).length ∧
      Heard (callBlocks (ledger.run count first.toNat) p.labels) (ledger.run count first.toNat) p
        (p.replay ledger count first).2 ∧
      (p.replay ledger count first).2.events = p.events ++ ledger.gap count first.toNat := by
  -- Kept from block to block: what was heard so far, and that nothing was reported.
  let I (blocks : List (Block × Delta)) (q : Pipeline (Listener τ)) : Prop :=
    Heard (callBlocks blocks p.labels) blocks p q ∧ q.events = p.events
  have hblock : ∀ q blocks block delta, I blocks q →
      I (blocks ++ [(block, delta)]) (q.newBlock block delta).2 := by
    intro q blocks block delta h
    have hblock := (heard_newBlock block delta q).2
    rw [h.1.labels] at hblock
    have hall := h.1.trans hblock
    rw [callBlocks, callBlocks, ← List.flatMap_append] at hall
    exact ⟨hall, (events_ask (fun l fx => Journal.events_noteCall fx l.label _) q).trans h.2⟩
  obtain ⟨hhanded, q, ⟨hheard, hevents⟩, hends⟩ :=
    replay_run ledger hblock hroom p [] ⟨.refl p, rfl⟩
  refine ⟨hhanded, ?_⟩
  rw [hends, LedgerView.gap]
  split
  · exact ⟨hheard, by rw [hevents, List.append_nil]⟩
  · exact ⟨hheard.log _, (Journal.events_log q.effects _).trans (congrArg (· ++ _) hevents)⟩

/-- The replay of a load hands the missing blocks to all listeners and reports the gap behind
them. -/
theorem heard_replayAbove_run {ledger : LedgerView} {durable : Round}
    (hlatest : ledger.latest.toNat + 1 < Round.limit) (hbehind : durable ≤ ledger.latest)
    (p : Pipeline (Listener τ)) :
    let count := ledger.latest.toNat - durable.toNat
    let blocks := ledger.run count (durable.toNat + 1)
    (p.replayAbove ledger durable).1 = .ok blocks.length ∧
      Heard (callBlocks blocks p.labels) blocks p (p.replayAbove ledger durable).2 ∧
      (p.replayAbove ledger durable).2.events =
        p.events ++ ledger.gap count (durable.toNat + 1) := by
  intro count blocks
  obtain ⟨first, hfirst, hnumber, hroom⟩ := LedgerView.exists_first hlatest hbehind
  have hcount : (ledger.latest.since durable).toNat = count := Round.toNat_since _ _
  have hreplay := heard_replay ledger hroom p
  rw [hcount, hnumber] at hreplay
  simp only [replayAbove, hfirst, hcount]
  exact hreplay

/-- The blocks that it hands on are those up to the last round before a gap. -/
theorem heard_replayAbove {ledger : LedgerView} {durable : Round}
    (hlatest : ledger.latest.toNat + 1 < Round.limit) (hbehind : durable ≤ ledger.latest)
    (p : Pipeline (Listener τ)) :
    ∃ m blocks, ledger.ReplayEnd durable m ∧ ledger.BlocksBetween durable m blocks ∧
      (p.replayAbove ledger durable).1 = .ok blocks.length ∧
      Heard (callBlocks blocks p.labels) blocks p (p.replayAbove ledger durable).2 := by
  obtain ⟨m, hm, hbetween⟩ := LedgerView.exists_replayEnd hbehind
  obtain ⟨hhanded, hheard, -⟩ := heard_replayAbove_run hlatest hbehind p
  exact ⟨m, _, hm, hbetween, hhanded, hheard⟩

/-- A load hands on exactly the missing blocks. A store ahead of the ledger is refused before
anybody is asked. If a tracker stops when it is asked to start at the durable round, those behind it
are not asked, no block is handed on, and the load ends as that tracker did. Otherwise all trackers
were asked in order, and then each is handed, in order for every block, the blocks of the rounds
above the durable one up to the last one before a gap; the pipeline counts as loaded at the durable
round. -/
theorem load_hands_on_missing {ledger : LedgerView}
    (hlatest : ledger.latest.toNat + 1 < Round.limit) (p : Pipeline (Listener τ)) :
    (ledger.latest < p.store.round →
      p.load ledger = (.error (.error (.storeAhead p.store.round ledger.latest)), p)) ∧
    (p.store.round ≤ ledger.latest →
      (∀ place stop,
        StopsAt (Tracker.load ledger p.store p.store.round) p.trackers p.effects place stop →
          (p.load ledger).1 = .error stop ∧
            (p.load ledger).2.durable = p.durable ∧ (p.load ledger).2.loaded = p.loaded ∧
            Heard (callAll (.load p.store.round ledger.latest) (p.labels.take (place + 1))) [] p
              (p.load ledger).2) ∧
      ((∀ place stop,
        ¬ StopsAt (Tracker.load ledger p.store p.store.round) p.trackers p.effects place stop) →
          ∃ m blocks, ledger.ReplayEnd p.store.round m ∧
            ledger.BlocksBetween p.store.round m blocks ∧
            (p.load ledger).1 = .ok () ∧
            (p.load ledger).2.durable = p.store.round ∧ (p.load ledger).2.loaded = true ∧
            Heard (callAll (.load p.store.round ledger.latest) p.labels ++
              callBlocks blocks p.labels) blocks p (p.load ledger).2)) := by
  constructor
  · intro hahead
    simp only [load, if_pos hahead]
  intro hbehind
  have hahead : ¬ ledger.latest < p.store.round := Nat.not_lt.mpr hbehind
  have hframe := (load_frame ledger p).2
  rcases heard_load ledger p.store p.store.round p with
    ⟨hok, hasked⟩ | ⟨place', stop', herror, hstops', hasked⟩
  -- Nobody stops.
  · have hgoes := not_stopsAt_of_ok hok
    refine ⟨fun place stop hstops => absurd hstops (hgoes place stop), fun _ => ?_⟩
    rcases hask : p.ask (Tracker.load ledger p.store p.store.round) with ⟨_ | _, q⟩ <;>
      rw [hask] at hok hasked
    · cases hok
    obtain ⟨m, blocks, hm, hbetween, hhanded, hblocks⟩ := heard_replayAbove hlatest hbehind q
    rcases hreplay : q.replayAbove ledger p.store.round with ⟨_ | handed, q'⟩ <;>
      rw [hreplay] at hhanded hblocks
    · cases hhanded
    have hload : p.load ledger = (.ok (),
        ({ q' with durable := p.store.round, loaded := true } : Pipeline _).log
          (.loaded p.store.round ledger.latest handed)) := by
      simp only [load, if_neg hahead, hask, hreplay]
    rw [hasked.labels] at hblocks
    have hall := hasked.trans hblocks
    refine ⟨m, blocks, hm, hbetween, ?_⟩
    rw [hload]
    exact ⟨rfl, rfl, rfl, hall.labels, (Journal.calls_log _ _).trans hall.calls, hall.taken⟩
  -- Somebody stops, and it can only be the one that did.
  · refine ⟨fun place stop hstops => ?_, fun hgoes => absurd hstops' (hgoes place' stop')⟩
    obtain ⟨rfl, rfl⟩ := hstops.unique hstops'
    have hload : p.load ledger =
        (.error stop, (p.ask (Tracker.load ledger p.store p.store.round)).2) := by
      rcases hask : p.ask (Tracker.load ledger p.store p.store.round) with ⟨_ | _, q⟩ <;>
        rw [hask] at herror
      · cases herror
        simp only [load, if_neg hahead, hask]
      · cases herror
    rw [hload] at hframe ⊢
    obtain ⟨hok, -⟩ | ⟨-, hdurable, hloaded⟩ := hframe
    · cases hok
    · exact ⟨rfl, hdurable, hloaded, hasked⟩

/-- A ledger up to round 5 that lacks the blocks of rounds 3 and 5. -/
def gappedLedger : LedgerView where
  latest := ⟨5⟩
  block r := if r.toNat ∈ [1, 2, 4] then some (Chain.blockAt r .zero 0) else none

/-- A bulletin and a tail behind labels, over an empty store. -/
def gappedPipeline : Pipeline (Listener (Member Tame)) where
  trackers := [⟨"front", .memory {}, []⟩, ⟨"back", .tail (.keeping 2), []⟩]
  config := {}
  store := {}

/-- Of the blocks behind the gap nothing is handed on. -/
theorem load_gappedPipeline :
    gappedLedger.latest.toNat + 1 < Round.limit ∧
      gappedPipeline.store.round ≤ gappedLedger.latest ∧
      ∃ m blocks, gappedLedger.ReplayEnd .zero m ∧ gappedLedger.BlocksBetween .zero m blocks ∧
        (gappedPipeline.load gappedLedger).1 = .ok () ∧
        m = ⟨2⟩ ∧ Heard (callAll (.load .zero ⟨5⟩) ["front", "back"] ++
          callBlocks blocks ["front", "back"]) blocks gappedPipeline
          (gappedPipeline.load gappedLedger).2 := by
  have hlatest : gappedLedger.latest.toNat + 1 < Round.limit := by decide
  have hbehind : gappedPipeline.store.round ≤ gappedLedger.latest := by decide
  have hasked : (sweep (Tracker.load gappedLedger gappedPipeline.store gappedPipeline.store.round)
      gappedPipeline.trackers gappedPipeline.effects).1 = .ok () := rfl
  obtain ⟨m, blocks, hm, hbetween, hok, -, -, hheard⟩ :=
    ((load_hands_on_missing hlatest gappedPipeline).2 hbehind).2 (not_stopsAt_of_ok hasked)
  have htwo : gappedLedger.ReplayEnd .zero ⟨2⟩ := by
    refine LedgerView.replayEnd_of_gap (by decide) (by decide) (fun r habove hupto => ?_)
      (fun _ => rfl)
    have hheld : r.toNat ∈ [1, 2, 4] := by
      have habove : 0 < r.toNat := habove
      have hupto : r.toNat ≤ 2 := hupto
      simp only [List.mem_cons, List.not_mem_nil, or_false]
      omega
    simp only [gappedLedger, if_pos hheld, Option.isSome_some]
  exact ⟨hlatest, hbehind, m, blocks, hm, hbetween, hok, hm.unique htwo, hheard⟩

end Pipeline

end CommitPipeline
