import CommitPipeline.Proofs.CrashPoint
import CommitPipeline.Proofs.DurableRound

/-!
# Releases of durable bulletins

The handles that durable bulletins give are only ready once the round they were given for is
durable. What carries this through a run is an invariant over three places: the board, where the
signal of a handle fires for one round only; the bulletins, where a durable one keeps the signals it
gave and a memory one keeps none of these; and the durable round, which is that of the store.

The module introduces:

* `SignalBoard.Truthful`, `Member.Keeps`, `Pipeline.Truthful` — the invariant, over the handles that
  were given so far;
* `Pipeline.Outlives` — what a crash leaves keeps what was promised;
* `Operation.truthful_run`, `Operation.Point.outlives` — operations keep the invariant, and so does
  every point within them.
-/

namespace CommitPipeline

variable {γ : Type}

/-- The handles given for rounds so far do not lie: those that are ready are of rounds up to the
stored one. A signal is given for one round only, and none is given before it is made. -/
structure SignalBoard.Truthful (given : List (Round × Handle)) (stored : Round)
    (board : SignalBoard) : Prop where
  ready_le : ∀ r h, (r, h) ∈ given → h.isReady board → r ≤ stored
  given_lt : ∀ r s, (r, .on s) ∈ given → s < board.made
  fired_lt : ∀ s, board.isFired s → s < board.made
  round_eq : ∀ r r' s, (r, .on s) ∈ given → (r', .on s) ∈ given → r = r'

/-- A durable bulletin holds the signals it gave for their rounds, and a memory bulletin none of
these. -/
def Member.Keeps (given : List (Round × Handle)) (made : Nat) : Member γ → Prop
  | memory b => ∀ r s, b.pending.get? r = some s → s < made ∧ ∀ q, (q, .on s) ∉ given
  | durable b => ∀ r s, b.pending.get? r = some s → (r, .on s) ∈ given
  | tail _ | guest _ => True

/-- From one board to another nothing was made, what had fired still has, and the handles given for
rounds do not lie. -/
structure SignalBoard.Onward (given : List (Round × Handle)) (stored : Round)
    (before after : SignalBoard) : Prop where
  made : after.made = before.made
  fired : ∀ s, before.isFired s → after.isFired s
  truthful : after.Truthful given stored

namespace SignalBoard

variable {given : List (Round × Handle)} {stored : Round} {before after amid : SignalBoard}

theorem Onward.refl (h : before.Truthful given stored) : before.Onward given stored before :=
  ⟨rfl, fun _ h => h, h⟩

/-- What had fired in between has fired at the end. -/
theorem Onward.trans (h : before.Onward given stored amid) (h' : amid.Onward given stored after) :
    before.Onward given stored after :=
  ⟨h'.made.trans h.made, fun s hs => h'.fired s (h.fired s hs), h'.truthful⟩

/-- A board between two later ones is a later one. -/
theorem Onward.between {first : SignalBoard} (h : first.Onward given stored before)
    (h' : first.Onward given stored after) (hamid : before.Between after amid) :
    first.Onward given stored amid where
  -- Nothing is made between the two boards, and what has fired between them has fired on the later.
  made := by
    have hge := hamid.made_ge
    have hle := hamid.made_le
    rw [h.made] at hge
    rw [h'.made] at hle
    exact Nat.le_antisymm hle hge
  fired s hs := hamid.fired_before s (h.fired s hs)
  truthful := by
    have hmade : before.made ≤ amid.made := hamid.made_ge
    refine ⟨fun r handle hgiven hready => ?_, fun r s hgiven => ?_, fun s hs => ?_,
      h.truthful.round_eq⟩
    · cases handle with
      | ready => exact h.truthful.ready_le r .ready hgiven rfl
      | on s => exact h'.truthful.ready_le r (.on s) hgiven (hamid.fired_after s hready)
    · exact Nat.lt_of_lt_of_le (h.truthful.given_lt r s hgiven) hmade
    · have hlt := h'.truthful.fired_lt s (hamid.fired_after s hs)
      rw [h'.made, ← h.made] at hlt
      exact Nat.lt_of_lt_of_le hlt hmade

/-- The stored round may rise. -/
theorem Truthful.mono {stored' : Round} (hle : stored ≤ stored')
    (h : before.Truthful given stored) : before.Truthful given stored' :=
  ⟨fun r handle hgiven hready => Nat.le_trans (h.ready_le r handle hgiven hready) hle, h.given_lt,
    h.fired_lt, h.round_eq⟩

end SignalBoard

namespace Bulletin

variable {given : List (Round × Handle)} {stored r : Round} {b b' : Bulletin}
  {board board' : SignalBoard}

/-- An announcement that fires handles of rounds up to the stored one, or none that was given for a
round, goes on without a lie. -/
theorem Announced.onward (h : Announced r b b' board board') (hboard : board.Truthful given stored)
    (hpending : ∀ q s, q ≤ r → b.pending.get? q = some s →
      s < board.made ∧ ∀ q', (q', .on s) ∈ given → q' ≤ stored) :
    board.Onward given stored board' where
  made := h.made
  fired s hs := (h.fired s).mpr (.inl hs)
  truthful := by
    refine ⟨fun q handle hgiven hready => ?_, fun q s hgiven => ?_, fun s hs => ?_,
      hboard.round_eq⟩
    · cases handle with
      | ready => exact hboard.ready_le q .ready hgiven rfl
      -- The signal fired before, or it was pending at or below the announced round.
      | on s =>
        rcases (h.fired s).mp hready with hold | ⟨q', hle, hget⟩
        · exact hboard.ready_le q (.on s) hgiven hold
        · exact (hpending q' s hle hget).2 q hgiven
    · rw [h.made]
      exact hboard.given_lt q s hgiven
    · rw [h.made]
      rcases (h.fired s).mp hs with hold | ⟨q', hle, hget⟩
      · exact hboard.fired_lt s hold
      · exact (hpending q' s hle hget).1

/-- What is pending after an announcement was pending before. -/
theorem Announced.pending_of (h : Announced r b b' board board') {q : Round} {s : SignalId}
    (hget : b'.pending.get? q = some s) : b.pending.get? q = some s := by
  rw [h.pending] at hget
  split at hget
  · cases hget
  · exact hget

end Bulletin

/-! ## Members -/

namespace Member

variable {given : List (Round × Handle)} {stored : Round} {first : SignalBoard}

/-- What is kept of one member while the handles given for rounds do not lie: the signals it holds,
and the rounds it has announced. -/
structure Sound (given : List (Round × Handle)) (stored : Round) (made : Nat) (t : Member γ) :
    Prop where
  keeps : t.Keeps given made
  within : t.Within stored

/-- An answer that leaves bulletins and signals alone keeps everything. -/
theorem Sound.of_sameBoards {t u : Member γ} {board board' : SignalBoard}
    (hsame : t.SameBoards u ∧ board' = board) (ht : t.Sound given stored first.made)
    (hboard : first.Onward given stored board) :
    u.Sound given stored first.made ∧ first.Onward given stored board' := by
  obtain ⟨hsame, rfl⟩ := hsame
  refine ⟨⟨?_, ht.within.of_sameBoards hsame⟩, hboard⟩
  have hkeeps := ht.keeps
  cases hsame with
  | memory b => exact hkeeps
  | durable b => exact hkeeps
  | tail t t' => trivial
  | guest g g' => trivial

/-- The same for a steady answer. -/
theorem Sound.of_steady {t u : Member γ} {board board' : SignalBoard}
    (h : t.Steady u ∧ board' = board) (ht : t.Sound given stored first.made)
    (hboard : first.Onward given stored board) :
    u.Sound given stored first.made ∧ first.Onward given stored board' :=
  Sound.of_sameBoards ⟨h.1.sameBoards, h.2⟩ ht hboard

variable [Guest γ]

/-- A member that starts from the store holds no signal. -/
theorem sound_load (ledger : LedgerView) (s : Store) (t : Member γ) (fx : Effects)
    (hboard : first.Onward given stored fx.signals) :
    (load ledger s stored (t, fx)).2.1.Sound given stored first.made ∧
      first.Onward given stored (load ledger s stored (t, fx)).2.2.signals := by
  have hwithin := within_load ledger s stored t fx
  have hlogged : ∀ (condition : Bool) (e : Event),
      first.Onward given stored (fx.logIf condition e).signals := by
    intro condition e
    rw [Effects.signals_logIf]
    exact hboard
  cases t with
  | memory b => exact ⟨⟨fun r s h => (nomatch h), hwithin⟩, hlogged _ _⟩
  | durable b => exact ⟨⟨fun r s h => (nomatch h), hwithin⟩, hlogged _ _⟩
  | tail t =>
    cases h : t.reload s stored <;> simp only [load, h] <;> exact ⟨⟨trivial, trivial⟩, hboard⟩
  | guest g => exact ⟨⟨trivial, trivial⟩, hboard⟩

/-- A block only fires signals of memory bulletins, which were given for no round. -/
theorem sound_newBlock (block : Block) (delta : Delta) (t : Member γ) (fx : Effects)
    (ht : t.Sound given stored first.made) (hboard : first.Onward given stored fx.signals) :
    (newBlock block delta (t, fx)).2.1.Sound given stored first.made ∧
      first.Onward given stored (newBlock block delta (t, fx)).2.2.signals := by
  have hwithin := within_newBlock block delta t fx ht.within
  cases t with
  | memory b =>
    have hkeeps : ∀ r s, b.pending.get? r = some s → s < first.made ∧ ∀ q, (q, .on s) ∉ given :=
      ht.keeps
    rcases Bulletin.announceBlock_cases block b fx with ⟨-, heq⟩ | ⟨-, hannounced⟩
    · have hsame : newBlock block delta ((memory b : Member γ), fx) = (.ok (), memory b, fx) := by
        simp only [newBlock, viaBulletin, heq]
      rw [hsame]
      exact ⟨ht, hboard⟩
    -- The signals of a memory bulletin are given for no round, so none of them can be a lie.
    · refine ⟨⟨fun r s hget => hkeeps r s (hannounced.pending_of hget), hwithin⟩, ?_⟩
      refine hboard.trans (hannounced.onward hboard.truthful fun q s _ hget => ?_)
      obtain ⟨hlt, hnot⟩ := hkeeps q s hget
      rw [hboard.made]
      exact ⟨hlt, fun q' hgiven => absurd hgiven (hnot q')⟩
  | durable b => exact ⟨ht, hboard⟩
  | tail t => exact ⟨⟨trivial, trivial⟩, hboard⟩
  | guest g => exact ⟨⟨trivial, trivial⟩, hboard⟩

/-- Once the new durable round is stored, a durable bulletin fires signals of rounds up to it. -/
theorem sound_released {k : Ticket} (hnew : k.range.newBase = .ok stored) (t : Member γ)
    (fx : Effects) (ht : t.Sound given stored first.made)
    (hboard : first.Onward given stored fx.signals) :
    (notice .released k (t, fx)).2.1.Sound given stored first.made ∧
      first.Onward given stored (notice .released k (t, fx)).2.2.signals := by
  have hwithin := within_released hnew t fx ht.within
  cases t with
  | memory b => exact ⟨ht, hboard⟩
  | durable b =>
    have hkeeps : ∀ r s, b.pending.get? r = some s → (r, .on s) ∈ given := ht.keeps
    have hnotice : notice .released k ((durable b : Member γ), fx) =
        viaBulletin durable (Bulletin.announce stored) b fx := by
      simp only [notice, viaBulletin, Bulletin.announceLanded_eq hnew]
    rw [hnotice] at hwithin ⊢
    rcases Bulletin.announce_cases stored b fx with ⟨-, heq⟩ | ⟨-, hannounced⟩
    · simp only [viaBulletin, heq]
      exact ⟨ht, hboard⟩
    · refine ⟨⟨fun r s hget => hkeeps r s (hannounced.pending_of hget), hwithin⟩, ?_⟩
      refine hboard.trans (hannounced.onward hboard.truthful fun q s hle hget => ?_)
      -- A signal that fires here was given for the round it is pending for, and for no other.
      have hgiven := hkeeps q s hget
      refine ⟨hboard.truthful.given_lt q s hgiven, fun q' hgiven' => ?_⟩
      rw [hboard.truthful.round_eq q' q s hgiven' hgiven]
      exact hle
  | tail t => exact ⟨⟨trivial, trivial⟩, hboard⟩
  | guest g => exact ⟨⟨trivial, trivial⟩, hboard⟩

end Member

/-! ## Questions to all trackers -/

section Safe

variable {κ ε : Type} {given : List (Round × Handle)} {stored : Round} {first : SignalBoard}
  {board : κ → SignalBoard} {ask : Act ε (Member γ × κ) Unit}

/-- A question after whose answers no handle lies. -/
def Safe (given : List (Round × Handle)) (stored : Round) (first : SignalBoard)
    (board : κ → SignalBoard) (ask : Act ε (Member γ × κ) Unit) : Prop :=
  ∀ t c, t.Sound given stored first.made → first.Onward given stored (board c) →
    (ask (t, c)).2.1.Sound given stored first.made ∧
      first.Onward given stored (board (ask (t, c)).2.2)

/-- A question that leaves all bulletins alone makes no handle lie. -/
theorem Safe.of_sameBoards
    (h : ∀ t c, t.SameBoards (ask (t, c)).2.1 ∧ board (ask (t, c)).2.2 = board c) :
    Safe given stored first board ask :=
  fun t c ht hc => Member.Sound.of_sameBoards (h t c) ht hc

/-- Nor does a question after which members are steady. -/
theorem Safe.of_steady
    (h : ∀ t c, t.Steady (ask (t, c)).2.1 ∧ board (ask (t, c)).2.2 = board c) :
    Safe given stored first board ask :=
  fun t c ht hc => Member.Sound.of_steady (h t c) ht hc

/-- At every point of a safe question no handle lies. -/
theorem SweepPoint.onward (hask : Safe given stored first board ask) {trackers : List (Member γ)}
    (htrackers : ∀ t ∈ trackers, t.Sound given stored first.made) {c : κ}
    (hc : first.Onward given stored (board c)) {amid : SignalBoard}
    (h : SweepPoint ask board trackers c amid) : first.Onward given stored amid := by
  obtain ⟨answered, hbetween⟩ := h
  -- So many answers are a sweep over as many trackers, and the point lies between two of these.
  have hupto : ∀ n, first.Onward given stored (board (sweep ask (trackers.take n) c).2.2) :=
    fun n => (sweep_forall (I := fun c => first.Onward given stored (board c)) hask
      (trackers.take n) (fun t ht => htrackers t (List.mem_of_mem_take ht)) hc).2
  exact (hupto answered).between (hupto (answered + 1)) hbetween

end Safe

namespace Pipeline

variable {given : List (Round × Handle)} {p q : Pipeline (Member γ)} {m : Remains}

/-- No handle given so far lies, and none will: the pipeline is current, and every bulletin holds
the signals it should. -/
structure Truthful (given : List (Round × Handle)) (p : Pipeline (Member γ)) : Prop where
  current : p.Current
  board : p.effects.signals.Truthful given p.store.round
  keeps : ∀ t ∈ p.trackers, t.Keeps given p.effects.signals.made

/-- What `p` has promised to those who hold handles is still so at `m`. -/
structure Outlives (given : List (Round × Handle)) (p : Pipeline (Member γ)) (m : Remains) :
    Prop where
  round_le : p.store.round ≤ m.store.round
  fired : ∀ s, p.effects.signals.isFired s → m.signals.isFired s
  truthful : m.signals.Truthful given m.store.round

/-- What `p` has promised to those who hold handles is still so at `q`, and `q` goes on so. -/
structure Onward (given : List (Round × Handle)) (p q : Pipeline (Member γ)) : Prop where
  round_le : p.store.round ≤ q.store.round
  fired : ∀ s, p.effects.signals.isFired s → q.effects.signals.isFired s
  truthful : q.Truthful given

/-- Each member of a truthful pipeline is sound. -/
theorem Truthful.sound (hp : p.Truthful given) :
    ∀ t ∈ p.trackers, t.Sound given p.store.round p.effects.signals.made :=
  fun t ht => ⟨hp.keeps t ht, hp.current.within t ht⟩

/-- A truthful pipeline keeps its promises by staying as it is. -/
theorem Onward.refl (hp : p.Truthful given) : p.Onward given p :=
  ⟨Nat.le_refl _, fun _ h => h, hp⟩

/-- Promises are kept in a row. -/
theorem Onward.trans {r : Pipeline (Member γ)} (h : p.Onward given q) (h' : q.Onward given r) :
    p.Onward given r :=
  ⟨Nat.le_trans h.round_le h'.round_le, fun s hs => h'.fired s (h.fired s hs), h'.truthful⟩

/-- What a later pipeline leaves behind keeps the promises of an earlier one. -/
theorem Onward.outlives (h : p.Onward given q) (h' : q.Outlives given m) : p.Outlives given m :=
  ⟨Nat.le_trans h.round_le h'.round_le, fun s hs => h'.fired s (h.fired s hs), h'.truthful⟩

/-- Steady changes are none to those who hold handles. -/
theorem Onward.of_steady (hp : p.Truthful given) (h : p.Steady q) : p.Onward given q := by
  refine ⟨by rw [h.store]; exact Nat.le_refl _, by rw [h.signals]; exact fun _ hs => hs,
    hp.current.of_steady h, ?_, ?_⟩
  · rw [h.signals, h.store]
    exact hp.board
  · have hsound := h.forall_trackers
      (G := fun t => t.Sound given p.store.round p.effects.signals.made)
      (fun hsteady ht => (Member.Sound.of_steady ⟨hsteady, rfl⟩ ht (.refl hp.board)).1) hp.sound
    rw [h.signals]
    exact fun t ht => (hsound t ht).keeps

/-- A line of the log says nothing to those who hold handles. -/
theorem Onward.log (h : p.Onward given q) (e : Event) : p.Onward given (q.log e) :=
  h.trans (.of_steady h.truthful (steady_log e))

/-- A pipeline that counts as loaded at the round of its store goes on so. -/
theorem Onward.loaded {round : Round} (h : p.Onward given q) (hround : round = q.store.round) :
    p.Onward given { q with durable := round, loaded := true } :=
  ⟨h.round_le, h.fired, ⟨fun _ => hround, h.truthful.current.within⟩, h.truthful.board,
    h.truthful.keeps⟩

/-- The points of a safe question to all trackers. -/
theorem outlives_of_sweepPoint {κ ε : Type} {board : κ → SignalBoard}
    {ask : Act ε (Member γ × κ) Unit} {c : κ} (hp : p.Truthful given)
    (hask : Safe given p.store.round p.effects.signals board ask)
    (hc : board c = p.effects.signals) (hstore : m.store = p.store)
    (h : SweepPoint ask board p.trackers c m.signals) : p.Outlives given m := by
  have honward := h.onward hask hp.sound (by rw [hc]; exact .refl hp.board)
  refine ⟨by rw [hstore]; exact Nat.le_refl _, honward.fired, ?_⟩
  rw [hstore]
  exact honward.truthful

/-- A question may be cut short after any of the members it is put to. -/
theorem AskPoint.outlives {ε : Type} {a : Act ε (Member γ × Effects) Unit}
    (hp : p.Truthful given)
    (hask : Safe given p.store.round p.effects.signals Effects.signals a)
    (h : AskPoint a p m) : p.Outlives given m :=
  outlives_of_sweepPoint hp hask rfl h.1 h.2

/-- A safe question to all trackers. -/
theorem onward_ask {ε : Type} {a : Act ε (Member γ × Effects) Unit} (hp : p.Truthful given)
    (hask : Safe given p.store.round p.effects.signals Effects.signals a) :
    p.Onward given (p.ask a).2 := by
  obtain ⟨hsound, honward⟩ := ask_forall (I := p.effects.signals.Onward given p.store.round) hask
    hp.sound (.refl hp.board)
  refine ⟨Nat.le_refl _, honward.fired, ⟨hp.current.durable, fun t ht => (hsound t ht).within⟩,
    honward.truthful, fun t ht => ?_⟩
  rw [honward.made]
  exact (hsound t ht).keeps

/-! ## Operations and their points -/

variable [Guest γ]

/-- Blocks fire signals of memory bulletins only, and none of the handles is theirs. -/
theorem safe_newBlock {stored : Round} {first : SignalBoard} (block : Block) (delta : Delta) :
    Safe given stored first Effects.signals (Member.newBlock (γ := γ) block delta) :=
  fun t fx => Member.sound_newBlock block delta t fx

/-- A bulletin that starts afresh forgets its signals and fires none. -/
theorem safe_load {stored : Round} {first : SignalBoard} (ledger : LedgerView) (s : Store) :
    Safe given stored first Effects.signals (Member.load (γ := γ) ledger s stored) :=
  fun t fx _ => Member.sound_load ledger s t fx

/-- Closing fires nothing. -/
theorem safe_close {stored : Round} {first : SignalBoard} :
    Safe given stored first Effects.signals (Member.close (γ := γ)) :=
  .of_sameBoards Member.sameBoards_close

/-- Nothing but the news that readers are let in again can fire a signal given for a round. -/
theorem safe_notice {stored : Round} {first : SignalBoard} {n : Notice} (h : n ≠ .released)
    (k : Ticket) : Safe given stored first Effects.signals (Member.notice (γ := γ) n k) :=
  .of_sameBoards (Member.sameBoards_notice h k)

/-- Released trackers fire up to the new base, which is the stored round by then. -/
theorem safe_released {stored : Round} {first : SignalBoard} {k : Ticket}
    (hnew : k.range.newBase = .ok stored) :
    Safe given stored first Effects.signals (Member.notice (γ := γ) .released k) :=
  fun t fx => Member.sound_released hnew t fx

/-- A question for needs fires nothing. -/
theorem safe_need {stored : Round} {first : SignalBoard} (committed : Round) :
    Safe given stored first (fun c : Effects × Need => c.1.signals)
      (needOne (τ := Member γ) committed) :=
  .of_steady (steady_needOne committed)

/-- The narrowing of a range fires nothing. -/
theorem safe_refine {stored : Round} {first : SignalBoard} (committed durable : Round) :
    Safe given stored first (fun c : Effects × CommitRange => c.1.signals)
      (refineOne (τ := Member γ) committed durable) :=
  .of_steady (steady_refineOne committed durable)

/-- The preparation fires nothing. -/
theorem safe_prepare {stored : Round} {first : SignalBoard} :
    Safe given stored first (fun c : Effects × Ticket => c.1.signals)
      (Member.prepare (γ := γ)) :=
  .of_steady fun t c => Member.steady_prepare t c.1 c.2

/-- Writing fires nothing: the signals wait for the transaction. -/
theorem safe_write {stored : Round} {first : SignalBoard} :
    Safe given stored first (fun c : Effects × Ticket × Store => c.1.signals)
      (Member.write (γ := γ)) :=
  .of_steady fun t c => Member.steady_write t c.1 c.2.1 c.2.2

/-- A block keeps all promises. -/
theorem onward_newBlock (block : Block) (delta : Delta) (hp : p.Truthful given) :
    p.Onward given (p.newBlock block delta).2 :=
  onward_ask hp (safe_newBlock block delta)

/-- Closing keeps all promises. -/
theorem onward_close (hp : p.Truthful given) : p.Onward given p.close.2 := by
  have hask := onward_ask hp (a := Tracker.close) safe_close
  rcases close_cases p with heq | heq <;> rw [heq]
  · exact hask
  · exact hask.log _

/-- The trackers start from the store without a lie, and go on so through the blocks. -/
theorem onward_load (ledger : LedgerView) (hp : p.Truthful given) :
    p.Onward given (p.load ledger).2 := by
  have hask := onward_ask hp (safe_load ledger p.store)
  have hreplay := replayAbove_preserves
    (I := fun q => p.Onward given q ∧ q.store = p.store)
    (fun q r h => ⟨h.1.log _, h.2⟩)
    (fun q block delta h => ⟨h.1.trans (onward_newBlock block delta h.1.truthful), h.2⟩)
    ledger p.store.round ⟨hask, rfl⟩
  -- Wherever the load stops, what was asked so far was no lie.
  obtain ⟨-, heq⟩ | ⟨p₁, rfl, ⟨stop, heq⟩ | ⟨-, p₂, rfl, ⟨stop, heq⟩ | ⟨replayed, -, heq⟩⟩⟩ :=
    load_cases ledger p <;> rw [heq]
  · exact .refl hp
  · exact hask
  · exact hreplay.1
  · exact (hreplay.1.loaded (congrArg Store.round hreplay.2).symm).log _

section Cycles

variable [KeepsRange γ] {k k' : Ticket} {newBase : Round}

/-- Once its transaction is written, nothing that a cycle goes on to tell is a lie. -/
theorem onward_writes (hp : p.Truthful given) (h : p.Writes k newBase k' q) :
    p.Onward given { q with durable := newBase, flushed := true } := by
  have hle := h.round_le hp.current
  have hsound := h.steady.forall_trackers
    (G := fun t => t.Sound given p.store.round p.effects.signals.made)
    (fun hsteady ht => (Member.Sound.of_steady ⟨hsteady, rfl⟩ ht (.refl hp.board)).1) hp.sound
  have hsignals : q.effects.signals = p.effects.signals := h.steady.signals
  -- The signals are still those from before the cycle; only the stored round has risen.
  refine ⟨hle, by rw [hsignals]; exact fun _ hs => hs, ⟨fun _ => h.stored.symm, ?_⟩, ?_, ?_⟩
  · exact fun t ht => (hsound t ht).within.mono hle
  · show q.effects.signals.Truthful given q.store.round
    rw [hsignals]
    exact hp.board.mono hle
  · show ∀ t ∈ q.trackers, t.Keeps given q.effects.signals.made
    rw [hsignals]
    exact fun t ht => (hsound t ht).keeps

/-- The tickets of the two tellings end their ranges at the stored round. -/
theorem lands_settled (h : p.Writes k newBase k' q) :
    ({ k' with flushed := true } : Ticket).range.newBase = .ok q.store.round := by
  rw [h.stored]
  show k'.range.newBase = .ok newBase
  rw [h.range, h.lands]

/-- A cycle that landed keeps all promises, those of the round it wrote among them. -/
theorem onward_settleLanded (hp : p.Truthful given) (h : p.Writes k newBase k' q) :
    p.Onward given (q.settleLanded newBase k').2.2 := by
  have hlands := lands_settled h
  have hwritten := onward_writes hp h
  have hfirst := hwritten.trans (onward_ask hwritten.truthful
    (a := Tracker.notice .landed { k' with flushed := true })
    (safe_notice (n := .landed) nofun _))
  have hsecond := hfirst.trans (onward_ask hfirst.truthful
    (a := Tracker.notice .released { k' with flushed := true })
    (safe_released hlands))
  obtain ⟨p₁, rfl, ⟨f, -, heq⟩ | ⟨-, p₂, rfl, ⟨f, -, heq⟩ | ⟨-, heq⟩⟩⟩ :=
    settleLanded_cases (q := q) newBase k' <;> rw [heq]
  · exact hfirst
  · exact hsecond
  · exact hsecond.log _

/-- Promises hold wherever the end of a landed cycle is cut short, since the store is written
first. -/
theorem SettlePoint.outlives (hp : p.Truthful given) (h : p.Writes k newBase k' q)
    (hpoint : SettlePoint newBase k' q m) : p.Outlives given m := by
  have hwritten := onward_writes hp h
  cases hpoint with
  | landed hpoint =>
    exact hwritten.outlives (hpoint.outlives hwritten.truthful
      (safe_notice (n := .landed) nofun _))
  | released htold hpoint =>
    obtain rfl := congrArg Prod.snd htold
    have hlands := lands_settled h
    have hfirst := hwritten.trans (onward_ask hwritten.truthful
      (a := Tracker.notice .landed { k' with flushed := true })
      (safe_notice (n := .landed) nofun _))
    exact hfirst.outlives (hpoint.outlives hfirst.truthful
      (safe_released hlands))

/-- Whatever a cycle does up to the end of its transaction, and in telling of a failure, is steady;
what it does after the transaction goes on from there. -/
theorem CyclePoint.outlives (hp : p.Truthful given) (hpoint : p.CyclePoint k m) :
    p.Outlives given m := by
  have henter : p.Steady (p.enter k) := steady_log _
  have hprepare := henter.trans (steady_prepareAll k)
  cases hpoint with
  | skipped hpoint =>
    have honward := (Onward.of_steady hp henter).log (.outOfOrder p.durable)
    exact honward.outlives (hpoint.outlives honward.truthful
      (safe_notice (n := .outOfOrder) nofun k))
  | preparing hstore hpoint =>
    exact outlives_of_sweepPoint hp safe_prepare rfl hstore hpoint
  | @objected e k' q hprepared hpoint =>
    rw [hprepared] at hprepare
    have honward := (Onward.of_steady hp hprepare).log (.prepareFailed e)
    exact honward.outlives (hpoint.outlives honward.truthful
      (safe_notice (n := .prepareFailed) nofun _))
  | writing hprepared hstore hpoint =>
    rw [hprepared] at hprepare
    have honward := Onward.of_steady hp hprepare
    exact honward.outlives (outlives_of_sweepPoint honward.truthful safe_write rfl hstore hpoint)
  -- A transaction that is rolled back leaves the store alone, so it is steady as well.
  | @rolledBack k₁ p₁ newBase e k' q hprepared hwritten hpoint =>
    rw [hprepared] at hprepare
    obtain ⟨hsteady, -, hkept⟩ := steady_transaction (p := p₁) newBase k₁
    rw [hwritten] at hsteady hkept
    rw [hkept nofun] at hsteady
    have honward := (Onward.of_steady hp (hprepare.trans hsteady)).log (.rolledBack e)
    exact honward.outlives (hpoint.outlives honward.truthful
      (safe_notice (n := .writeFailed) nofun _))
  | settling hwrites hpoint => exact hpoint.outlives hp hwrites

/-- Promises hold in the middle of retries: the attempts before were steady. -/
theorem RetryPoint.outlives {retries attempt : Nat} (hp : p.Truthful given)
    (hpoint : RetryPoint retries attempt k p m) : p.Outlives given m := by
  induction hpoint with
  | first hpoint => exact hpoint.outlives hp
  | @again _ attempt _ _ tracker objection k' q _ hobjected _ ih =>
    have hobjection := fruitless_runCycle_of_error hobjected
    have honward := (Onward.of_steady hp hobjection.steady).log
      (.narrowed tracker objection (attempt + 1) (k'.range.length / 2))
    exact honward.outlives (ih honward.truthful)

end Cycles

/-- Promises hold in the middle of a negotiation, as nothing is written in it. -/
theorem SchedulePoint.outlives {committed : Round} {lookback : UInt64} (hp : p.Truthful given)
    (hpoint : SchedulePoint committed lookback p m) : p.Outlives given m :=
  outlives_of_sweepPoint hp (safe_refine committed p.durable) rfl hpoint.1 hpoint.2

/-- Promises hold in the middle of a report. -/
theorem ReportPoint.outlives {round : Round} (hp : p.Truthful given)
    (hpoint : ReportPoint round p m) : p.Outlives given m := by
  cases hpoint with
  | needing hstore hpoint => exact outlives_of_sweepPoint hp (safe_need round) rfl hstore hpoint
  | scheduling hneed hpoint =>
    have hsteady := (steady_remember (p := p) round).trans (steady_needAll round)
    rw [hneed] at hsteady
    have honward := Onward.of_steady hp hsteady
    exact honward.outlives (hpoint.outlives honward.truthful)

/-- Promises hold between the blocks of a replay and within each of them. -/
theorem ReplayPoint.outlives {ledger : LedgerView} {count : Nat} {r : Round}
    (hp : p.Truthful given) (hpoint : ReplayPoint ledger count r p m) : p.Outlives given m := by
  induction hpoint with
  | first _ hpoint => exact hpoint.outlives hp (safe_newBlock _ _)
  | @later _ _ _ _ _ block delta _ _ hnew _ _ ih =>
    have honward := onward_newBlock block delta hp
    rw [hnew] at honward
    exact honward.outlives (ih honward.truthful)

/-- Promises hold in the middle of a load, before and after the blocks are replayed. -/
theorem LoadPoint.outlives {ledger : LedgerView} (hp : p.Truthful given)
    (hpoint : p.LoadPoint ledger m) : p.Outlives given m := by
  cases hpoint with
  | starting hpoint => exact hpoint.outlives hp (safe_load ledger p.store)
  | replaying hstarted _ hpoint =>
    have honward := onward_ask hp (safe_load ledger p.store)
    rw [show p.ask (Member.load ledger p.store p.store.round) = _ from hstarted] at honward
    exact honward.outlives (hpoint.outlives honward.truthful)

end Pipeline

/-! ## Runs -/

variable [Guest γ] [KeepsRange γ] {given : List (Round × Handle)} {p : Pipeline (Member γ)}

/-- No operation turns a handle into a lie. -/
theorem Operation.onward_run (operation : Operation) (hp : p.Truthful given) :
    p.Onward given (operation.run p) := by
  cases operation with
  | load ledger => exact Pipeline.onward_load ledger hp
  | newBlock block delta => exact Pipeline.onward_newBlock block delta hp
  | close => exact Pipeline.onward_close hp
  | request r =>
    refine r.run_preserves (I := p.Onward given) ?_ ?_ (.refl hp)
    · exact fun hsteady h => h.trans (.of_steady h.truthful hsteady)
    · exact fun h hwrites => h.trans (Pipeline.onward_settleLanded h.truthful hwrites)

/-- A crash within an operation turns no handle into a lie. -/
theorem Operation.Point.outlives {operation : Operation} {m : Remains} (hp : p.Truthful given)
    (hpoint : operation.Point p m) : p.Outlives given m := by
  cases hpoint with
  | load hpoint => exact hpoint.outlives hp
  | newBlock hpoint => exact hpoint.outlives hp (Pipeline.safe_newBlock _ _)
  | close hpoint => exact hpoint.outlives hp Pipeline.safe_close
  | report hpoint => exact hpoint.outlives hp
  | schedule hpoint => exact hpoint.outlives hp
  | commit hpoint => exact hpoint.outlives hp
  | work hpoint => exact hpoint.outlives hp
  | @complete handled _ _ hpoint =>
    have honward := (Pipeline.Onward.of_steady hp Pipeline.steady_clearMark).log
      (.followUp handled p.reported)
    exact honward.outlives (hpoint.outlives honward.truthful)

end CommitPipeline
