import CommitPipeline.Proofs.Regression

/-!
# Durable waiters are released exactly

A load puts every durable bulletin at the stored round, with nobody waiting. From then on the
bulletins move with the database: a cycle that writes a round has it announced before it ends, and
nothing else is announced. So whoever took a handle for a round since the load is let through once
the round is stored, and not before.

The module introduces:

* `Member.LevelWith` — a durable bulletin is at a round, with waiters above it only;
* `Pipeline.Awaits` — somebody waits for a round, or was let through;
* `Watch` — a session beside the handles given since its last load;
* `ready_iff_stored` — these are ready for the stored rounds and no others.
-/

namespace CommitPipeline

variable {γ : Type}

/-! ## Bulletins and waits -/

/-- A wait forgets nobody who waits already, the handle it gives is ready or pending for its round,
and nobody is made to wait for an announced round. -/
theorem Bulletin.pending_wait {b b' : Bulletin} {board signals : SignalBoard} {r : Round}
    {handle : Handle} (h : b.wait board r = (handle, b', signals)) :
    (∀ q s, b.pending.get? q = some s → b'.pending.get? q = some s) ∧
      (∀ s, handle = .on s → b'.pending.get? r = some s) ∧
      ∀ q s, b'.pending.get? q = some s → b.pending.get? q = some s ∨ b.latest < q := by
  unfold wait at h
  by_cases hlatest : r ≤ b.latest
  · rw [if_pos hlatest] at h
    obtain ⟨rfl, rfl, rfl⟩ := Prod.mk.inj h |>.imp_right Prod.mk.inj
    exact ⟨fun _ _ hget => hget, by simp, fun _ _ hget => .inl hget⟩
  rw [if_neg hlatest] at h
  cases hpending : b.pending.get? r with
  | some s =>
    rw [hpending] at h
    obtain ⟨rfl, rfl, rfl⟩ := Prod.mk.inj h |>.imp_right Prod.mk.inj
    refine ⟨fun _ _ hget => hget, ?_, fun _ _ hget => .inl hget⟩
    rintro s' ⟨⟩
    exact hpending
  | none =>
    rw [hpending] at h
    obtain ⟨rfl, rfl, rfl⟩ := Prod.mk.inj h |>.imp_right Prod.mk.inj
    -- The new signal takes the place of no other one: nothing was pending for the round.
    refine ⟨?_, ?_, ?_⟩
    · intro q s hget
      have hne : q ≠ r := by
        rintro rfl
        rw [hpending] at hget
        cases hget
      rw [RoundTable.get?_insert, if_neg hne]
      exact hget
    · rintro s ⟨⟩
      rw [RoundTable.get?_insert, if_pos rfl]
    · intro q s hget
      rw [RoundTable.get?_insert] at hget
      by_cases hq : q = r
      · subst hq
        exact .inr (Nat.lt_of_not_le hlatest)
      · rw [if_neg hq] at hget
        exact .inl hget

namespace Member

/-- A durable bulletin has announced exactly the rounds up to a given one, and nobody waits there
for any of these. -/
def LevelWith (r : Round) : Member γ → Prop
  | durable b => b.latest = r ∧ ∀ q s, b.pending.get? q = some s → r < q
  | memory _ | tail _ | guest _ => True

/-- This is a durable bulletin, and the signal for a round is pending there. -/
def Holds (r : Round) (s : SignalId) : Member γ → Prop
  | durable b => b.pending.get? r = some s
  | memory _ | tail _ | guest _ => False

variable {r stored : Round} {s : SignalId}

theorem LevelWith.of_sameBoards {t u : Member γ} (hsame : t.SameBoards u)
    (h : t.LevelWith stored) : u.LevelWith stored := by
  cases hsame with
  | durable b => exact h
  | memory b => trivial
  | tail t t' => trivial
  | guest g g' => trivial

theorem Holds.of_sameBoards {t u : Member γ} (hsame : t.SameBoards u) (h : t.Holds r s) :
    u.Holds r s := by
  cases hsame with
  | durable b => exact h
  | memory b => exact h
  | tail t t' => exact h
  | guest g g' => exact h

variable [Guest γ]

theorem levelWith_load (ledger : LedgerView) (store : Store) (t : Member γ) (fx : Effects) :
    (load ledger store stored (t, fx)).2.1.LevelWith stored := by
  cases t with
  | durable b =>
    refine ⟨rfl, ?_⟩
    intro q s hget
    cases hget
  | memory b => trivial
  | tail t => cases hreload : t.reload store stored <;> simp only [load, hreload] <;> trivial
  | guest g => trivial

/-- Blocks are announced by memory bulletins only. -/
theorem levelWith_newBlock (block : Block) (delta : Delta) (t : Member γ) (fx : Effects)
    (h : t.LevelWith stored) : (newBlock block delta (t, fx)).2.1.LevelWith stored := by
  cases t with
  | durable b => exact h
  | memory b => trivial
  | tail t => trivial
  | guest g => trivial

/-- A durable bulletin that is told of a landed ticket, and is not cut short, is at the end of its
range. -/
theorem levelWith_released {k : Ticket} (hnew : k.range.newBase = .ok stored) (t : Member γ)
    (fx : Effects) (h : t.LevelWith r) (hok : (notice .released k (t, fx)).1 = .ok ()) :
    (notice .released k (t, fx)).2.1.LevelWith stored := by
  cases t with
  | durable b =>
    have hok : (Bulletin.announceLanded k (b, fx)).1 = .ok () := hok
    show (Bulletin.announceLanded k (b, fx)).2.1.latest = stored ∧
      ∀ q s, (Bulletin.announceLanded k (b, fx)).2.1.pending.get? q = some s → stored < q
    rw [Bulletin.announceLanded_eq hnew] at hok ⊢
    rcases Bulletin.announce_cases stored b fx with ⟨-, heq⟩ | ⟨-, hannounced⟩
    · rw [heq] at hok
      cases hok
    refine ⟨hannounced.latest, ?_⟩
    intro q s hget
    rw [hannounced.pending] at hget
    -- What the announcement passed is not pending any more.
    by_cases hq : q ≤ stored
    · rw [if_pos hq] at hget
      cases hget
    · exact Nat.lt_of_not_le hq
  | memory b => trivial
  | tail t => trivial
  | guest g => trivial

theorem holds_newBlock (block : Block) (delta : Delta) (t : Member γ) (fx : Effects)
    (h : t.Holds r s) : (newBlock block delta (t, fx)).2.1.Holds r s := by
  cases t with
  | durable b => exact h
  | memory b => exact h
  | tail t => exact h
  | guest g => exact h

/-- A signal that has fired stays so while a block is taken. -/
theorem isFired_newBlock (block : Block) (delta : Delta) (t : Member γ) (fx : Effects)
    (h : fx.signals.isFired s) : (newBlock block delta (t, fx)).2.2.signals.isFired s := by
  cases t with
  | memory b =>
    show (Bulletin.announceBlock block (b, fx)).2.2.signals.isFired s
    rcases Bulletin.announceBlock_cases block b fx with ⟨-, heq⟩ | ⟨-, hannounced⟩
    · rw [heq]
      exact h
    · exact (hannounced.fired s).mpr (.inl h)
  | durable b => exact h
  | tail t => exact h
  | guest g => exact h

/-- Whoever waits is let through when readers are let in, or waits on. -/
theorem holds_released {k : Ticket} {newBase : Round} (hnew : k.range.newBase = .ok newBase)
    (t : Member γ) (fx : Effects) (h : t.Holds r s) :
    (notice .released k (t, fx)).2.1.Holds r s ∨
      (notice .released k (t, fx)).2.2.signals.isFired s := by
  cases t with
  | durable b =>
    have h : b.pending.get? r = some s := h
    show (Bulletin.announceLanded k (b, fx)).2.1.pending.get? r = some s ∨
      (Bulletin.announceLanded k (b, fx)).2.2.signals.isFired s
    rw [Bulletin.announceLanded_eq hnew]
    rcases Bulletin.announce_cases newBase b fx with ⟨-, heq⟩ | ⟨-, hannounced⟩
    · rw [heq]
      exact .inl h
    -- Up to the announced round the signals fire, and above it they stay pending.
    by_cases hle : r ≤ newBase
    · exact .inr ((hannounced.fired s).mpr (.inr ⟨r, hle, h⟩))
    · rw [hannounced.pending, if_neg hle]
      exact .inl h
  | memory b => exact h.elim
  | tail t => exact h.elim
  | guest g => exact h.elim

theorem isFired_released {k : Ticket} {newBase : Round} (hnew : k.range.newBase = .ok newBase)
    (t : Member γ) (fx : Effects) (h : fx.signals.isFired s) :
    (notice .released k (t, fx)).2.2.signals.isFired s := by
  cases t with
  | durable b =>
    show (Bulletin.announceLanded k (b, fx)).2.2.signals.isFired s
    rw [Bulletin.announceLanded_eq hnew]
    rcases Bulletin.announce_cases newBase b fx with ⟨-, heq⟩ | ⟨-, hannounced⟩
    · rw [heq]
      exact h
    · exact (hannounced.fired s).mpr (.inl h)
  | memory b => exact h
  | tail t => exact h
  | guest g => exact h

end Member

namespace Pipeline

variable {p q : Pipeline (Member γ)} {r : Round} {s : SignalId}

/-! ## Who waits -/

/-- A durable bulletin holds the signal for a round, or the signal has fired. -/
def Awaits (r : Round) (s : SignalId) (p : Pipeline (Member γ)) : Prop :=
  (∃ t ∈ p.trackers, t.Holds r s) ∨ p.effects.signals.isFired s

/-- What every answer keeps until the signal fires, a question to all trackers keeps so. -/
theorem awaits_ask {ε : Type} {a : Act ε (Member γ × Effects) Unit}
    (hholds : ∀ t fx, t.Holds r s →
      (a (t, fx)).2.1.Holds r s ∨ (a (t, fx)).2.2.signals.isFired s)
    (hfired : ∀ t fx, fx.signals.isFired s → (a (t, fx)).2.2.signals.isFired s)
    (hp : p.Awaits r s) : (p.ask a).2.Awaits r s :=
  sweep_exists (I := fun fx : Effects => fx.signals.isFired s) hholds hfired p.trackers hp

/-- A question that leaves bulletins and signals alone leaves those alone who wait. -/
theorem awaits_ask_of_sameBoards {ε : Type} {a : Act ε (Member γ × Effects) Unit}
    (h : ∀ t fx, t.SameBoards (a (t, fx)).2.1 ∧ (a (t, fx)).2.2.signals = fx.signals)
    (hp : p.Awaits r s) : (p.ask a).2.Awaits r s := by
  apply awaits_ask _ _ hp
  · intro t fx ht
    exact .inl (ht.of_sameBoards (h t fx).1)
  · intro t fx hfired
    rw [(h t fx).2]
    exact hfired

theorem Awaits.of_steady (h : p.Steady q) (hp : p.Awaits r s) : q.Awaits r s := by
  unfold Awaits at hp ⊢
  rw [h.signals]
  refine hp.imp_left ?_
  have htrackers := h.trackers
  generalize p.trackers = ts at htrackers
  generalize q.trackers = us at htrackers
  -- The bulletin that holds the signal is found at the same place.
  induction htrackers with
  | nil => exact id
  | cons htu _ ih =>
    rintro ⟨t, ht, hholds⟩
    rcases List.mem_cons.mp ht with rfl | ht
    · exact ⟨_, List.mem_cons_self, hholds.of_sameBoards htu.sameBoards⟩
    · obtain ⟨u, hu, hholds⟩ := ih ⟨t, ht, hholds⟩
      exact ⟨u, List.mem_cons_of_mem _ hu, hholds⟩

/-- One tracker is replaced by another that holds at least the same signals. -/
theorem awaits_putBack {before after : List (Member γ)} {t t' : Member γ} {signals : SignalBoard}
    (htrackers : p.trackers = before ++ t :: after) (hholds : t.Holds r s → t'.Holds r s)
    (hfired : ∀ s, signals.isFired s = p.effects.signals.isFired s) (hp : p.Awaits r s) :
    (p.putBack (before ++ t' :: after) signals).Awaits r s := by
  rcases hp with ⟨u, hu, hheld⟩ | hold
  · refine .inl ?_
    rw [htrackers] at hu
    rcases List.mem_append.mp hu with hu | hu
    · exact ⟨u, List.mem_append_left _ hu, hheld⟩
    rcases List.mem_cons.mp hu with rfl | hu
    · exact ⟨t', List.mem_append_right _ List.mem_cons_self, hholds hheld⟩
    · exact ⟨u, List.mem_append_right _ (List.mem_cons_of_mem _ hu), hheld⟩
  · refine .inr ?_
    show signals.isFired s
    rw [hfired]
    exact hold

variable [Guest γ]

theorem awaits_newBlock (block : Block) (delta : Delta) (hp : p.Awaits r s) :
    (p.newBlock block delta).2.Awaits r s := by
  apply awaits_ask _ _ hp
  · intro t fx ht
    exact .inl (Member.holds_newBlock block delta t fx ht)
  · exact Member.isFired_newBlock block delta

theorem awaits_close (hp : p.Awaits r s) : p.close.2.Awaits r s := by
  have hask : (p.ask Tracker.close).2.Awaits r s :=
    awaits_ask_of_sameBoards Member.sameBoards_close hp
  rcases close_cases p with heq | heq <;> rw [heq] <;> exact hask

/-- Once a transaction is written, whoever waits for a round up to its end is let through. -/
theorem awaits_settleLanded {k : Ticket} {newBase : Round} (hnew : k.range.newBase = .ok newBase)
    (hq : q.Awaits r s) : (q.settleLanded newBase k).2.2.Awaits r s := by
  have hwritten : Awaits r s { q with durable := newBase, flushed := true } := hq
  have hfirst : (tell .landed { k with flushed := true }
      { q with durable := newBase, flushed := true }).2.Awaits r s :=
    awaits_ask_of_sameBoards (Member.sameBoards_notice (n := .landed) (by simp) _) hwritten
  have hsecond := awaits_ask (a := Tracker.notice .released { k with flushed := true })
    (Member.holds_released (k := { k with flushed := true }) hnew)
    (Member.isFired_released (k := { k with flushed := true }) hnew) hfirst
  -- Somebody may be cut short in hearing of the landing or in letting readers in; whoever was asked
  -- before has answered by then.
  obtain ⟨p₁, rfl, ⟨f, -, heq⟩ | ⟨-, p₂, rfl, ⟨f, -, heq⟩ | ⟨-, heq⟩⟩⟩ :=
    settleLanded_cases (q := q) newBase k <;> rw [heq]
  · exact hfirst
  · exact hsecond
  · exact hsecond

variable [KeepsRange γ] {k k' : Ticket} {newBase : Round}

theorem awaits_of_writes (h : p.Writes k newBase k' q) (hp : p.Awaits r s) :
    (q.settleLanded newBase k').2.2.Awaits r s := by
  have hnew : k'.range.newBase = .ok newBase := by rw [h.range, h.lands]
  have hstored : Awaits r s { p with store := q.store } := hp
  exact awaits_settleLanded hnew (hstored.of_steady h.steady)

/-! ## Where the bulletins are -/

omit [KeepsRange γ] in
/-- Wherever a load stops, durable bulletins stay at the stored round. -/
theorem levelWith_load (ledger : LedgerView)
    (hp : ∀ t ∈ p.trackers, t.LevelWith p.store.round) :
    ∀ t ∈ (p.load ledger).2.trackers, t.LevelWith p.store.round :=
  (load_forall (I := fun _ => True)
    (fun t fx _ _ => ⟨Member.levelWith_load ledger p.store t fx, trivial⟩)
    (fun block delta t fx ht _ => ⟨Member.levelWith_newBlock block delta t fx ht, trivial⟩)
    hp trivial).1

/-- Whatever the trackers are told of a landed cycle, the durable bulletins are at the new durable
round afterwards. -/
theorem levelWith_of_writes [HearsOut γ] (hp : p.Current)
    (hlevel : ∀ t ∈ p.trackers, t.LevelWith p.store.round) (h : p.Writes k newBase k' q) :
    ∀ t ∈ (q.settleLanded newBase k').2.2.trackers, t.LevelWith newBase := by
  have hnew : k'.range.newBase = .ok newBase := by rw [h.range, h.lands]
  have hwritten : ∀ t ∈ q.trackers, t.LevelWith p.store.round :=
    h.steady.forall_trackers (fun hsteady => .of_sameBoards hsteady.sameBoards) hlevel
  refine settleLanded_forall_of_ok (H := Member.LevelWith p.store.round) ?_ ?_
    (settles_of_writes h hp) hwritten
  -- To hear of the landing changes no bulletin; to let readers in moves the durable ones.
  · intro t fx ht _
    exact ht.of_sameBoards (Member.sameBoards_notice (n := .landed) (by simp) _ t fx).1
  · intro t fx ht hok
    exact Member.levelWith_released (k := { k' with flushed := true }) hnew t fx ht hok

end Pipeline

/-! ## Sessions and the handles of their last load -/

/-- A session, and the handles that durable bulletins gave for rounds since its last load. -/
structure Watch (γ : Type) where
  /-- The session. -/
  session : Session γ
  /-- The handles with their rounds. -/
  recent : List (Round × Handle)

namespace Watch

variable [Guest γ]

/-- What may happen in a session. A load, however it ends, forgets who waits; every other operation
leaves the handles what they are, and a wait at a durable bulletin gives one more. -/
inductive Step : Watch γ → Watch γ → Prop
  | load (w : Watch γ) (ledger : LedgerView) :
      Step w ⟨⟨(Operation.load ledger).run w.session.pipeline, w.session.given⟩, []⟩
  | operate (w : Watch γ) {operation : Operation} (hload : ∀ ledger, operation ≠ .load ledger) :
      Step w ⟨⟨operation.run w.session.pipeline, w.session.given⟩, w.recent⟩
  | waitDurable {w : Watch γ} {before after : List (Member γ)} {b b' : Bulletin} {r : Round}
      {handle : Handle} {signals : SignalBoard}
      (htrackers : w.session.pipeline.trackers = before ++ .durable b :: after)
      (hwait : b.wait w.session.pipeline.effects.signals r = (handle, b', signals)) :
      Step w ⟨⟨w.session.pipeline.putBack (before ++ .durable b' :: after) signals,
        (r, handle) :: w.session.given⟩, (r, handle) :: w.recent⟩
  | waitMemory {w : Watch γ} {before after : List (Member γ)} {b b' : Bulletin} {r : Round}
      {handle : Handle} {signals : SignalBoard}
      (htrackers : w.session.pipeline.trackers = before ++ .memory b :: after)
      (hwait : b.wait w.session.pipeline.effects.signals r = (handle, b', signals)) :
      Step w ⟨⟨w.session.pipeline.putBack (before ++ .memory b' :: after) signals,
        w.session.given⟩, w.recent⟩

/-- A session right after a load. -/
def begin (p : Pipeline (Member γ)) (given : List (Round × Handle)) : Watch γ := ⟨⟨p, given⟩, []⟩

/-- What holds in a session that was loaded: no handle lies, durable bulletins are level with the
store, and whoever took a handle since the last load was let through or waits still. -/
structure Kept (w : Watch γ) : Prop where
  truthful : w.session.pipeline.Truthful w.session.given
  loaded : w.session.pipeline.loaded
  level : ∀ t ∈ w.session.pipeline.trackers, t.LevelWith w.session.pipeline.store.round
  given : ∀ entry ∈ w.recent, entry ∈ w.session.given
  awaits : ∀ r s, (r, .on s) ∈ w.recent → w.session.pipeline.Awaits r s

variable {w w' : Watch γ}

omit [Guest γ] in
/-- Under the invariant a handle is ready if its round is stored. -/
theorem Kept.isReady_iff (h : w.Kept) {r : Round} {handle : Handle}
    (hrecent : (r, handle) ∈ w.recent) :
    handle.isReady w.session.pipeline.effects.signals ↔ r ≤ w.session.pipeline.store.round := by
  constructor
  · exact h.truthful.board.ready_le r handle (h.given _ hrecent)
  intro hle
  cases handle with
  | ready => rfl
  | on s =>
    rcases h.awaits r s hrecent with ⟨t, ht, hholds⟩ | hfired
    -- A durable bulletin holds signals of rounds above the stored one only.
    · have hlevel := h.level t ht
      cases t with
      | durable b => exact absurd hle (Nat.not_le.mpr (hlevel.2 r s hholds))
      | memory b => exact hholds.elim
      | tail t => exact hholds.elim
      | guest g => exact hholds.elim
    · exact hfired

omit [Guest γ] in
/-- Whoever takes a handle of a durable bulletin waits there, or need not wait. -/
theorem kept_waitDurable (hw : w.Kept) {before after : List (Member γ)} {b b' : Bulletin}
    {r : Round} {handle : Handle} {signals : SignalBoard}
    (htruthful : (w.session.pipeline.putBack (before ++ .durable b' :: after) signals).Truthful
      ((r, handle) :: w.session.given))
    (htrackers : w.session.pipeline.trackers = before ++ .durable b :: after)
    (hwait : b.wait w.session.pipeline.effects.signals r = (handle, b', signals)) :
    Kept ⟨⟨w.session.pipeline.putBack (before ++ .durable b' :: after) signals,
      (r, handle) :: w.session.given⟩, (r, handle) :: w.recent⟩ := by
  obtain ⟨hpending, hgiven, habove⟩ := Bulletin.pending_wait hwait
  have hb : Member.LevelWith w.session.pipeline.store.round (.durable b : Member γ) := by
    refine hw.level _ ?_
    rw [htrackers]
    exact List.mem_append_right _ List.mem_cons_self
  have hb' : Member.LevelWith w.session.pipeline.store.round (.durable b' : Member γ) := by
    refine ⟨(Bulletin.latest_wait hwait).trans hb.1, ?_⟩
    intro q s hget
    rcases habove q s hget with hget | hlt
    · exact hb.2 q s hget
    · exact hb.1 ▸ hlt
  refine ⟨htruthful, hw.loaded, Pipeline.forall_replaced htrackers hw.level hb', ?_, ?_⟩
  · intro entry hentry
    rcases List.mem_cons.mp hentry with rfl | hentry
    · exact List.mem_cons_self
    · exact List.mem_cons_of_mem _ (hw.given entry hentry)
  · intro q s hrecent
    rcases List.mem_cons.mp hrecent with hnew | hold
    -- The new handle is ready, or its signal is pending for its round.
    · obtain ⟨rfl, hhandle⟩ := Prod.mk.inj hnew
      exact .inl ⟨.durable b', List.mem_append_right _ List.mem_cons_self,
        hgiven s hhandle.symm⟩
    · exact Pipeline.awaits_putBack htrackers (hpending q s) (Bulletin.isFired_wait hwait)
        (hw.awaits q s hold)

/-- Without the handles of the last load this is a step of the session. -/
theorem Step.session (h : w.Step w') : w.session.Step w'.session := by
  cases h with
  | load ledger => exact .operate w.session (.load ledger)
  | @operate operation hload => exact .operate w.session operation
  | waitDurable htrackers hwait => exact .waitDurable htrackers hwait
  | waitMemory htrackers hwait => exact .waitMemory htrackers hwait

variable [KeepsRange γ]

/-- What operations other than a load keep of durable bulletins and of those who wait there. -/
theorem kept_operate [HearsOut γ] {p : Pipeline (Member γ)} {operation : Operation}
    (hcurrent : p.Current) (hload : ∀ ledger, operation ≠ .load ledger)
    (hlevel : ∀ t ∈ p.trackers, t.LevelWith p.store.round) :
    (∀ t ∈ (operation.run p).trackers, t.LevelWith (operation.run p).store.round) ∧
      ∀ r s, p.Awaits r s → (operation.run p).Awaits r s := by
  cases operation with
  | load ledger => exact absurd rfl (hload ledger)
  | newBlock block delta =>
    refine ⟨?_, fun r s => Pipeline.awaits_newBlock block delta⟩
    exact (Pipeline.ask_forall (I := fun _ => True)
      (fun t fx ht _ => ⟨Member.levelWith_newBlock block delta t fx ht, trivial⟩) hlevel trivial).1
  | close =>
    refine ⟨?_, fun r s => Pipeline.awaits_close⟩
    have hask := (Pipeline.ask_forall (I := fun _ => True) (a := Tracker.close)
      (fun t fx ht _ => ⟨.of_sameBoards (Member.sameBoards_close t fx).1 ht, trivial⟩) hlevel
      trivial).1
    rw [Operation.run]
    rcases Pipeline.close_cases p with heq | heq <;> rw [heq] <;> exact hask
  | request request =>
    -- A cycle that writes moves store and bulletins together; the rest of a request is steady.
    have hall := request.run_preserves
      (I := fun q => q.Current ∧ (∀ t ∈ q.trackers, t.LevelWith q.store.round) ∧
        ∀ r s, p.Awaits r s → q.Awaits r s) ?_ ?_ ⟨hcurrent, hlevel, fun _ _ h => h⟩
    · exact hall.2
    · rintro q q' hsteady ⟨hcurrent, hlevel, hawaits⟩
      refine ⟨hcurrent.of_steady hsteady, ?_, fun r s h => (hawaits r s h).of_steady hsteady⟩
      rw [hsteady.store]
      exact hsteady.forall_trackers (fun hsteady => .of_sameBoards hsteady.sameBoards) hlevel
    · rintro q k newBase k' q' ⟨hcurrent, hlevel, hawaits⟩ hwrites
      refine ⟨Pipeline.current_settleLanded hwrites hcurrent, ?_,
        fun r s h => Pipeline.awaits_of_writes hwrites (hawaits r s h)⟩
      rw [(Pipeline.settleLanded_frame newBase k').1, hwrites.stored]
      exact Pipeline.levelWith_of_writes hcurrent hlevel hwrites

theorem kept_step [HearsOut γ] (hw : w.Kept) (h : w.Step w') : w'.Kept := by
  have htruthful := (World.truthful_session hw.truthful h.session).1
  cases h with
  -- Everybody starts afresh at the stored round, and nobody waits.
  | load ledger =>
    refine ⟨htruthful, ?_, ?_, by simp, by simp⟩
    · exact ((Operation.load ledger).advances_run hw.truthful.current).loaded hw.loaded
    · show ∀ t ∈ (w.session.pipeline.load ledger).2.trackers,
        t.LevelWith (w.session.pipeline.load ledger).2.store.round
      rw [(Pipeline.load_frame ledger w.session.pipeline).1]
      exact Pipeline.levelWith_load ledger hw.level
  | @operate operation hload =>
    obtain ⟨hlevel, hawaits⟩ := kept_operate hw.truthful.current hload hw.level
    refine ⟨htruthful, ?_, hlevel, hw.given, ?_⟩
    · exact (operation.advances_run hw.truthful.current).loaded hw.loaded
    · intro r s hrecent
      exact hawaits r s (hw.awaits r s hrecent)
  | waitDurable htrackers hwait => exact kept_waitDurable hw htruthful htrackers hwait
  | waitMemory htrackers hwait =>
    refine ⟨htruthful, hw.loaded, Pipeline.forall_replaced htrackers hw.level trivial, hw.given, ?_⟩
    intro q s hrecent
    exact Pipeline.awaits_putBack htrackers False.elim (Bulletin.isFired_wait hwait)
      (hw.awaits q s hrecent)

/-- A load that ends well, in a session over a database with any past, begins it. -/
theorem kept_begin {s : Session γ} (hs : (World.up s).Reachable) {ledger : LedgerView}
    {p : Pipeline (Member γ)} (hload : s.pipeline.load ledger = (.ok (), p)) :
    (Watch.begin p s.given).Kept := by
  have htruthful := Pipeline.onward_load ledger (World.truthful_of_reachable hs)
  have hstore := (Pipeline.load_frame ledger s.pipeline).1
  rw [hload] at htruthful hstore
  have hstore : p.store = s.pipeline.store := hstore
  refine ⟨htruthful.truthful, (Pipeline.current_of_load hload).2.1, ?_, by simp [begin],
    by simp [begin]⟩
  show ∀ t ∈ p.trackers, t.LevelWith p.store.round
  rw [hstore]
  exact Pipeline.load_forall_of_ok
    (fun t fx => Member.levelWith_load ledger s.pipeline.store t fx)
    (fun block delta t fx => Member.levelWith_newBlock block delta t fx) hload

end Watch

/-- In a session over a database that only sessions like it have written, from a load that ended
well on, let anything happen: blocks, reports, negotiations, waits, further loads, and cycles that
land, fail, are tried again or are stale, over guests that may object and fail but are not cut short
in a cycle. Then every durable bulletin is at the stored round, and a handle taken since the last
load is ready exactly if its round is stored. No cycle that is run next makes a bulletin announce a
round below its latest one. -/
theorem ready_iff_stored [Guest γ] [KeepsRange γ] [Answers γ] {s : Session γ}
    (hs : (World.up s).Reachable) {ledger : LedgerView} {p : Pipeline (Member γ)}
    (hload : s.pipeline.load ledger = (.ok (), p)) {w : Watch γ}
    (hrun : Relation.ReflTransGen Watch.Step (Watch.begin p s.given) w) :
    (∀ b, .durable b ∈ w.session.pipeline.trackers →
        b.latest = w.session.pipeline.store.round) ∧
      (∀ r handle, (r, handle) ∈ w.recent →
        (handle.isReady w.session.pipeline.effects.signals ↔
          r ≤ w.session.pipeline.store.round)) ∧
      ∀ k r latest,
        (w.session.pipeline.commit k).1 ≠ .error (.fault (.regressed r latest)) ∧
          (w.session.pipeline.runWithRetries k).1 ≠ .error (.fault (.regressed r latest)) := by
  -- By induction on the steps since the load.
  have hkept : w.Kept := by
    induction hrun with
    | refl => exact Watch.kept_begin hs hload
    | tail _ hstep ih => exact Watch.kept_step ih hstep
  refine ⟨?_, ?_, ?_⟩
  · intro b hb
    exact (hkept.level (.durable b) hb).1
  · intro r handle hrecent
    exact hkept.isReady_iff hrecent
  · intro k r latest
    have hcurrent := hkept.truthful.current
    exact ⟨Pipeline.commit_ne_regressed hcurrent k,
      Pipeline.runWithRetries_ne_regressed hcurrent k⟩

/-- A guest that objects to ranges of more than one round. -/
inductive Objector where
  | objector

instance : Guest Objector where
  name _ := "objector"
  load _ _ _ g := (.ok (), g)
  newBlock _ _ g := (.ok (), g)
  need committed g := (.ok ⟨committed, 0⟩, g)
  refine _ _ range g := (.ok (some range), g)
  prepare := fun (g, k) =>
    if 1 < k.range.length then
      (.error (.error (.cannotPrepare "objector" (.tooLong k.range.length))), g, k)
    else (.ok (), g, k)
  write := fun (g, k, s) => (.ok (), g, k, s)
  notice _ _ g := (.ok (), g)
  close g := (.ok (), g)

instance : KeepsRange Objector where
  range_prepare g k := by
    simp only [Guest.prepare]
    split <;> rfl
  range_write _ _ _ := rfl

instance : Answers Objector where
  notice_ok _ _ _ := rfl
  prepare_ne_fault g k f := by
    simp only [Guest.prepare]
    split <;> simp
  write_ne_fault _ _ _ _ := by simp [Guest.write]

/-- A durable bulletin behind an objector, over an empty database. -/
def guarded : Pipeline (Member Objector) :=
  { trackers := [.guest .objector, .durable {}], config := {}, store := .empty }

/-- A ledger of two rounds of which no block is at hand. -/
def bareLedger : LedgerView := { latest := ⟨2⟩, block := fun _ => none }

/-- The pipeline once it is loaded. -/
def guardedLoaded : Pipeline (Member Objector) := (guarded.load bareLedger).2

/-- The pipeline while somebody waits for the first round. -/
def guardedOnce : Pipeline (Member Objector) :=
  guardedLoaded.putBack
    [.guest .objector, .durable { pending := RoundTable.empty.insert ⟨1⟩ 0 }] { made := 1 }

/-- The pipeline while somebody waits for each of the first two rounds. -/
def guardedTwice : Pipeline (Member Objector) :=
  guardedOnce.putBack
    [.guest .objector, .durable { pending := (RoundTable.empty.insert ⟨1⟩ 0).insert ⟨2⟩ 1 }]
    { made := 2 }

/-- The worker is handed a cycle of two rounds and lands the first of them, by half the range. The
handle of round one is ready then, and that of round two is not. -/
theorem ready_iff_stored_halved :
    let request := Request.work ⟨⟨.zero, 2, 0⟩, ⟨2⟩, false⟩
    (request.run guardedTwice).store.round = ⟨1⟩ ∧
      Handle.isReady (request.run guardedTwice).effects.signals (.on 0) ∧
        ¬Handle.isReady (request.run guardedTwice).effects.signals (.on 1) := by
  intro request
  have hfresh : ∀ t ∈ guarded.trackers, t.Fresh := by
    simp [guarded, Member.Fresh]
  have hreachable : (World.up ⟨guarded, []⟩).Reachable :=
    ⟨.empty, .single (@World.Step.start Objector _ ⟨.empty, {}⟩ [] _ {} [] guarded hfresh rfl)⟩
  have hfirst := @Watch.Step.waitDurable Objector _ (.begin guardedLoaded []) [.guest .objector] []
    {} _ ⟨1⟩ (.on 0) _ rfl rfl
  have hsecond := @Watch.Step.waitDurable Objector _ ⟨⟨guardedOnce, [(⟨1⟩, .on 0)]⟩, [(⟨1⟩, .on 0)]⟩
    [.guest .objector] [] { pending := RoundTable.empty.insert ⟨1⟩ 0 } _ ⟨2⟩ (.on 1) _ rfl rfl
  have hwork := @Watch.Step.operate Objector _
    ⟨⟨guardedTwice, [(⟨2⟩, .on 1), (⟨1⟩, .on 0)]⟩, [(⟨2⟩, .on 1), (⟨1⟩, .on 0)]⟩
    (.request request) (by simp)
  have hexact := (ready_iff_stored hreachable (Prod.ext rfl rfl)
    (.head hfirst (.head hsecond (.single hwork)))).2.1
  have hround : (request.run guardedTwice).store.round = ⟨1⟩ := rfl
  refine ⟨hround, (hexact ⟨1⟩ (.on 0) (by simp)).mpr ?_, ?_⟩
  · exact Nat.le_refl 1
  · intro hready
    have hle : (⟨2⟩ : Round) ≤ (request.run guardedTwice).store.round :=
      (hexact ⟨2⟩ (.on 1) (by simp)).mp hready
    rw [hround] at hle
    exact absurd hle (by decide)

end CommitPipeline
