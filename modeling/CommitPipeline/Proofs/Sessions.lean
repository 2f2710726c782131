import CommitPipeline.Proofs.Releases
import CommitPipeline.Proofs.Tame
import Mathlib.Logic.Relation

/-!
# Sessions over one database

A session opens a pipeline over the database, with trackers that start afresh, and then does
anything in any order. It ends where it is stopped or where it crashes; the next one finds what the
database holds. Handles outlive the session they were given in.

The module introduces:

* `Session.Step` — operations and waits;
* `World.Step` — sessions that start, go on, stop and crash;
* `World.Truthful` — the invariant of a run of sessions;
* `ready_le_stored` — a handle of a durable bulletin is ready only for a durable round.
-/

namespace CommitPipeline

variable {γ : Type}

/-- A pipeline in use, with the handles that durable bulletins gave for rounds so far, in this
session and in those before it. -/
structure Session (γ : Type) where
  /-- The pipeline. -/
  pipeline : Pipeline (Member γ)
  /-- The handles with their rounds. -/
  given : List (Round × Handle)

/-- The pipeline with other trackers and other signals. -/
def Pipeline.putBack (p : Pipeline (Member γ)) (trackers : List (Member γ))
    (signals : SignalBoard) : Pipeline (Member γ) :=
  { p with trackers, effects := { p.effects with signals } }

section Steps

variable [Guest γ]

/-- What may happen in a session. -/
inductive Session.Step : Session γ → Session γ → Prop
  | operate (s : Session γ) (operation : Operation) :
      Step s ⟨operation.run s.pipeline, s.given⟩
  | waitDurable {s : Session γ} {before after : List (Member γ)} {b b' : Bulletin} {r : Round}
      {handle : Handle} {signals : SignalBoard}
      (htrackers : s.pipeline.trackers = before ++ .durable b :: after)
      (hwait : b.wait s.pipeline.effects.signals r = (handle, b', signals)) :
      Step s ⟨s.pipeline.putBack (before ++ .durable b' :: after) signals, (r, handle) :: s.given⟩
  | waitMemory {s : Session γ} {before after : List (Member γ)} {b b' : Bulletin} {r : Round}
      {handle : Handle} {signals : SignalBoard}
      (htrackers : s.pipeline.trackers = before ++ .memory b :: after)
      (hwait : b.wait s.pipeline.effects.signals r = (handle, b', signals)) :
      Step s ⟨s.pipeline.putBack (before ++ .memory b' :: after) signals, s.given⟩

/-- A bulletin that has announced nothing and holds no signal; of other trackers nothing is said. -/
def Member.Fresh : Member γ → Prop
  | memory b | durable b => b = {}
  | tail _ | guest _ => True

/-- A database, between two sessions or in one. -/
inductive World (γ : Type) where
  | down (remains : Remains) (given : List (Round × Handle))
  | up (session : Session γ)

namespace World

/-- What the database holds. -/
def store : World γ → Store
  | down m _ => m.store
  | up s => s.pipeline.store

/-- The signals. -/
def signals : World γ → SignalBoard
  | down m _ => m.signals
  | up s => s.pipeline.effects.signals

/-- The handles that durable bulletins gave so far, with their rounds. -/
def given : World γ → List (Round × Handle)
  | down _ given => given
  | up s => s.given

/-- What may happen to a database: a session starts with fresh trackers, goes on, is stopped between
two operations, or crashes at any point within one. -/
inductive Step : World γ → World γ → Prop
  | start {m : Remains} {given : List (Round × Handle)} {trackers : List (Member γ)}
      {config : Config} {journal : Journal} {p : Pipeline (Member γ)}
      (hfresh : ∀ t ∈ trackers, t.Fresh)
      (hopen : Pipeline.open? trackers config m.store { signals := m.signals, journal } = .ok p) :
      Step (down m given) (up ⟨p, given⟩)
  | go {s s' : Session γ} (hstep : s.Step s') : Step (up s) (up s')
  | stop (s : Session γ) : Step (up s) (down s.pipeline.remains s.given)
  | crash {s : Session γ} {operation : Operation} {m : Remains}
      (hpoint : operation.Point s.pipeline m) : Step (up s) (down m s.given)

/-- What may become of a database that some other program made, or of an empty one. -/
def Reachable (w : World γ) : Prop :=
  ∃ store, Relation.ReflTransGen Step (down ⟨store, {}⟩ []) w

/-- No handle given so far lies, and in a session none will. -/
def Truthful : World γ → Prop
  | down m given => m.signals.Truthful given m.store.round
  | up s => s.pipeline.Truthful s.given

/-- From one world to a later one the stored round did not fall, signals that had fired still have,
and no handle was forgotten. -/
structure Later (w w' : World γ) : Prop where
  round_le : w.store.round ≤ w'.store.round
  fired : ∀ s, w.signals.isFired s → w'.signals.isFired s
  given : ∀ entry ∈ w.given, entry ∈ w'.given

end World

end Steps

/-! ## Waits -/

section Waits

variable {given : List (Round × Handle)} {stored r : Round} {board : SignalBoard}
  {handle : Handle}

/-- A wait is answered at once, by the signal that others wait for already, or by a new signal. -/
theorem Bulletin.wait_cases (b : Bulletin) (board : SignalBoard) (r : Round) :
    (r ≤ b.latest ∧ b.wait board r = (.ready, b, board)) ∨
      (∃ s, b.pending.get? r = some s ∧ b.wait board r = (.on s, b, board)) ∨
      b.wait board r = (.on board.made, { b with pending := b.pending.insert r board.made },
        { board with made := board.made + 1 }) := by
  unfold wait
  by_cases h : r ≤ b.latest
  · exact .inl ⟨h, by rw [if_pos h]⟩
  rw [if_neg h]
  cases hget : b.pending.get? r with
  | some s => exact .inr (.inl ⟨s, rfl, rfl⟩)
  | none => exact .inr (.inr rfl)

/-- Another handle may be given for a round if it is no lie and its signal is for that round. -/
theorem SignalBoard.Truthful.give (h : board.Truthful given stored)
    (hready : handle.isReady board → r ≤ stored) (hlt : ∀ s, handle = .on s → s < board.made)
    (hround : ∀ s q, handle = .on s → (q, .on s) ∈ given → q = r) :
    board.Truthful ((r, handle) :: given) stored := by
  refine ⟨fun q other hmem hother => ?_, fun q s hmem => ?_, h.fired_lt, fun q q' s hq hq' => ?_⟩
  · rcases List.mem_cons.mp hmem with heq | hmem
    · obtain ⟨rfl, rfl⟩ := Prod.mk.inj heq
      exact hready hother
    · exact h.ready_le q other hmem hother
  · rcases List.mem_cons.mp hmem with heq | hmem
    · exact hlt s (Prod.mk.inj heq).2.symm
    · exact h.given_lt q s hmem
  -- Both handles may be the new one, one of them, or none.
  · rcases List.mem_cons.mp hq with heq | hin <;> rcases List.mem_cons.mp hq' with heq' | hin'
    · exact (Prod.mk.inj heq).1.trans (Prod.mk.inj heq').1.symm
    · rw [(Prod.mk.inj heq).1]
      exact (hround s q' (Prod.mk.inj heq).2.symm hin').symm
    · rw [(Prod.mk.inj heq').1]
      exact hround s q (Prod.mk.inj heq').2.symm hin
    · exact h.round_eq q q' s hin hin'

theorem SignalBoard.Truthful.make (h : board.Truthful given stored) :
    ({ board with made := board.made + 1 } : SignalBoard).Truthful given stored :=
  ⟨h.ready_le, fun q s hmem => Nat.lt_succ_of_lt (h.given_lt q s hmem),
    fun s hs => Nat.lt_succ_of_lt (h.fired_lt s hs), h.round_eq⟩

/-- A member still holds the signals it should if a signal was given that is new, or that was given
before. -/
theorem Member.Keeps.give {made made' : Nat} (hle : made ≤ made') {t : Member γ}
    (ht : t.Keeps given made) (hnew : ∀ s, handle = .on s → made ≤ s ∨ (r, .on s) ∈ given) :
    t.Keeps ((r, handle) :: given) made' := by
  cases t with
  | memory b =>
    intro q s hget
    obtain ⟨hlt, hnot⟩ : s < made ∧ ∀ q, (q, .on s) ∉ given := ht q s hget
    refine ⟨Nat.lt_of_lt_of_le hlt hle, fun q' hmem => ?_⟩
    rcases List.mem_cons.mp hmem with heq | hmem
    · rcases hnew s (Prod.mk.inj heq).2.symm with hge | hgiven
      · exact absurd hlt (Nat.not_lt.mpr hge)
      · exact hnot r hgiven
    · exact hnot q' hmem
  | durable b => exact fun q s hget => List.mem_cons_of_mem _ (ht q s hget)
  | tail t => trivial
  | guest g => trivial

theorem Member.Keeps.mono {made made' : Nat} (hle : made ≤ made') {t : Member γ}
    (ht : t.Keeps given made) : t.Keeps given made' := by
  cases t with
  | memory b => exact fun q s hget => (ht q s hget).imp (Nat.lt_of_lt_of_le · hle) id
  | durable b => exact ht
  | tail t => trivial
  | guest g => trivial

namespace Pipeline

variable {p : Pipeline (Member γ)} {before after : List (Member γ)} {b b' : Bulletin}
  {signals : SignalBoard}

/-- What is said of all trackers is still so after one of them is replaced. -/
theorem forall_replaced {G : Member γ → Prop} {trackers before after : List (Member γ)}
    {t t' : Member γ} (htrackers : trackers = before ++ t :: after) (h : ∀ u ∈ trackers, G u)
    (ht' : G t') : ∀ u ∈ before ++ t' :: after, G u := by
  subst htrackers
  obtain ⟨hbefore, hrest⟩ := List.forall_mem_append.mp h
  exact List.forall_mem_append.mpr
    ⟨hbefore, List.forall_mem_cons.mpr ⟨ht', (List.forall_mem_cons.mp hrest).2⟩⟩

/-- One tracker and the signals are replaced, and another handle may have been given. -/
theorem Truthful.putBack (hp : p.Truthful given) {t t' : Member γ}
    (htrackers : p.trackers = before ++ t :: after) {given' : List (Round × Handle)}
    (hboard : signals.Truthful given' p.store.round) (hwithin : t'.Within p.store.round)
    (hkeeps : t'.Keeps given' signals.made)
    (hothers : ∀ u : Member γ, u.Keeps given p.effects.signals.made → u.Keeps given' signals.made) :
    (p.putBack (before ++ t' :: after) signals).Truthful given' := by
  exact ⟨⟨hp.current.durable, forall_replaced htrackers hp.current.within hwithin⟩, hboard,
    forall_replaced htrackers (fun u hu => hothers u (hp.keeps u hu)) hkeeps⟩

/-- A durable bulletin may be waited on: a handle that is ready at once is for a stored round. -/
theorem truthful_waitDurable (hp : p.Truthful given)
    (htrackers : p.trackers = before ++ .durable b :: after)
    (hwait : b.wait p.effects.signals r = (handle, b', signals)) :
    (p.putBack (before ++ .durable b' :: after) signals).Truthful ((r, handle) :: given) := by
  have hmem : Member.durable b ∈ p.trackers := by
    rw [htrackers]
    exact List.mem_append_right _ List.mem_cons_self
  have hlatest : b.latest ≤ p.store.round := hp.current.within _ hmem
  have hkeeps : ∀ q s, b.pending.get? q = some s → (q, .on s) ∈ given := hp.keeps _ hmem
  rcases b.wait_cases p.effects.signals r with ⟨hle, heq⟩ | ⟨s, hget, heq⟩ | heq <;>
    rw [heq] at hwait <;> obtain ⟨rfl, rfl, rfl⟩ := hwait
  -- The round was announced, so it is stored.
  · exact hp.putBack htrackers
      (hp.board.give (fun _ => Nat.le_trans hle hlatest) nofun nofun) hlatest
      (fun q s hget => List.mem_cons_of_mem _ (hkeeps q s hget))
      fun u hu => hu.give (Nat.le_refl _) nofun
  -- Somebody waits for the round already, and the signal is given once more.
  · have hgiven := hkeeps r s hget
    refine hp.putBack htrackers (hp.board.give ?_ ?_ ?_) hlatest
      (fun q s hget => List.mem_cons_of_mem _ (hkeeps q s hget))
      fun u hu => hu.give (Nat.le_refl _) ?_
    · exact hp.board.ready_le r (.on s) hgiven
    · rintro s' ⟨⟩
      exact hp.board.given_lt r s hgiven
    · rintro s' q ⟨⟩ hq
      exact hp.board.round_eq q r s hq hgiven
    · rintro s' ⟨⟩
      exact .inr hgiven
  -- The signal is new: it has not fired, and nobody else was given it.
  · refine hp.putBack htrackers (hp.board.make.give ?_ ?_ ?_) hlatest ?_
      fun u hu => hu.give (Nat.le_succ _) ?_
    · exact fun hready => absurd (hp.board.fired_lt _ hready) (Nat.lt_irrefl _)
    · rintro s' ⟨⟩
      exact Nat.lt_succ_self _
    · rintro s' q ⟨⟩ hq
      exact absurd (hp.board.given_lt q _ hq) (Nat.lt_irrefl _)
    · intro q s hget
      rw [RoundTable.get?_insert] at hget
      split at hget
      · next hq =>
        cases hget
        exact hq ▸ List.mem_cons_self
      · exact List.mem_cons_of_mem _ (hkeeps q s hget)
    · rintro s' ⟨⟩
      exact .inl (Nat.le_refl _)

/-- A memory bulletin may be waited on: the signals it gives are given for no round. -/
theorem truthful_waitMemory (hp : p.Truthful given)
    (htrackers : p.trackers = before ++ .memory b :: after)
    (hwait : b.wait p.effects.signals r = (handle, b', signals)) :
    (p.putBack (before ++ .memory b' :: after) signals).Truthful given := by
  have hmem : Member.memory b ∈ p.trackers := by
    rw [htrackers]
    exact List.mem_append_right _ List.mem_cons_self
  have hkeeps : ∀ q s, b.pending.get? q = some s →
      s < p.effects.signals.made ∧ ∀ q', (q', .on s) ∉ given := hp.keeps _ hmem
  rcases b.wait_cases p.effects.signals r with ⟨-, heq⟩ | ⟨s, -, heq⟩ | heq <;>
    rw [heq] at hwait <;> obtain ⟨rfl, rfl, rfl⟩ := hwait
  · exact hp.putBack htrackers hp.board trivial hkeeps fun _ hu => hu
  · exact hp.putBack htrackers hp.board trivial hkeeps fun _ hu => hu
  · refine hp.putBack htrackers hp.board.make trivial ?_ fun _ hu => hu.mono (Nat.le_succ _)
    intro q s hget
    rw [RoundTable.get?_insert] at hget
    split at hget
    · cases hget
      exact ⟨Nat.lt_succ_self _, fun q' hq => absurd (hp.board.given_lt q' _ hq) (Nat.lt_irrefl _)⟩
    · exact (hkeeps q s hget).imp Nat.lt_succ_of_lt id

end Pipeline

end Waits

/-! ## Runs -/

theorem Bulletin.isFired_wait {b b' : Bulletin} {board signals : SignalBoard} {r : Round}
    {handle : Handle} (h : b.wait board r = (handle, b', signals)) (s : SignalId) :
    signals.isFired s = board.isFired s := by
  rcases b.wait_cases board r with ⟨-, heq⟩ | ⟨s', -, heq⟩ | heq <;> rw [heq] at h <;>
    obtain ⟨-, -, rfl⟩ := h <;> rfl

namespace World

theorem Later.refl (w : World γ) : w.Later w := ⟨Nat.le_refl _, fun _ h => h, fun _ h => h⟩

theorem Later.trans {w w' w'' : World γ} (h : w.Later w') (h' : w'.Later w'') : w.Later w'' :=
  ⟨Nat.le_trans h.round_le h'.round_le, fun s hs => h'.fired s (h.fired s hs),
    fun e he => h'.given e (h.given e he)⟩

/-- A fresh member holds no signal and has announced nothing. -/
theorem fresh_sound {t : Member γ} (h : t.Fresh) (given : List (Round × Handle)) (stored : Round)
    (made : Nat) : t.Sound given stored made := by
  cases t with
  | memory b =>
    obtain rfl : b = {} := h
    exact ⟨nofun, trivial⟩
  | durable b =>
    obtain rfl : b = {} := h
    exact ⟨nofun, Nat.zero_le _⟩
  | tail t => exact ⟨trivial, trivial⟩
  | guest g => exact ⟨trivial, trivial⟩

variable [Guest γ] [KeepsRange γ]

/-- Whatever happens in a session, no handle becomes a lie. -/
theorem truthful_session {s s' : Session γ} (hs : s.pipeline.Truthful s.given) (h : s.Step s') :
    s'.pipeline.Truthful s'.given ∧ (up s).Later (up s') := by
  cases h with
  | operate operation =>
    have honward := operation.onward_run hs
    exact ⟨honward.truthful, honward.round_le, honward.fired, fun _ h => h⟩
  | waitDurable htrackers hwait =>
    refine ⟨Pipeline.truthful_waitDurable hs htrackers hwait, Nat.le_refl _, fun id hid => ?_,
      fun _ h => List.mem_cons_of_mem _ h⟩
    exact (Bulletin.isFired_wait hwait id).trans hid
  | waitMemory htrackers hwait =>
    refine ⟨Pipeline.truthful_waitMemory hs htrackers hwait, Nat.le_refl _, fun id hid => ?_,
      fun _ h => h⟩
    exact (Bulletin.isFired_wait hwait id).trans hid

/-- Whatever happens to a database, no handle becomes a lie. -/
theorem truthful_step {w w' : World γ} (hw : w.Truthful) (h : w.Step w') :
    w'.Truthful ∧ w.Later w' := by
  cases h with
  -- Fresh bulletins hold nothing, so all that was given so far is left to the board.
  | start hfresh hopen =>
    obtain rfl := Pipeline.open?_eq_ok hopen
    have hsound := fun t ht => fresh_sound (hfresh t ht)
    refine ⟨⟨⟨nofun, fun t ht => (hsound t ht [] _ 0).within⟩, hw, fun t ht => ?_⟩,
      Nat.le_refl _, fun _ h => h, fun _ h => h⟩
    exact (hsound t ht _ .zero _).keeps
  | go hstep => exact truthful_session hw hstep
  | stop s => exact ⟨hw.board, Nat.le_refl _, fun _ h => h, fun _ h => h⟩
  | crash hpoint =>
    have houtlives := hpoint.outlives hw
    exact ⟨houtlives.truthful, houtlives.round_le, houtlives.fired, fun _ h => h⟩

/-- However long things go on, no handle becomes a lie. -/
theorem truthful_run {w w' : World γ} (hw : w.Truthful)
    (h : Relation.ReflTransGen Step w w') : w'.Truthful ∧ w.Later w' := by
  induction h with
  | refl => exact ⟨hw, .refl w⟩
  | tail _ hstep ih =>
    obtain ⟨htruthful, hlater⟩ := truthful_step ih.1 hstep
    exact ⟨htruthful, ih.2.trans hlater⟩

theorem truthful_of_reachable {w : World γ} (h : w.Reachable) : w.Truthful := by
  obtain ⟨store, hrun⟩ := h
  refine (truthful_run ?_ hrun).1
  exact ⟨nofun, nofun, nofun, nofun⟩

end World

/-! ## After a load -/

namespace Member

/-- A durable bulletin has announced a round, or one above it. -/
def Reaches (r : Round) : Member γ → Prop
  | durable b => r ≤ b.latest
  | memory _ | tail _ | guest _ => True

theorem Reaches.of_sameBoards {r : Round} {t u : Member γ} (hsame : t.SameBoards u)
    (h : t.Reaches r) : u.Reaches r := by
  cases hsame with
  | durable b => exact h
  | memory b => trivial
  | tail t t' => trivial
  | guest g g' => trivial

variable [Guest γ] {r : Round}

theorem reaches_load {durableRound : Round} (hle : r ≤ durableRound) (ledger : LedgerView)
    (s : Store) (t : Member γ) (fx : Effects) :
    (load ledger s durableRound (t, fx)).2.1.Reaches r := by
  cases t with
  | durable b => exact hle
  | memory b => trivial
  | tail t => cases hreload : t.reload s durableRound <;> simp only [load, hreload] <;> trivial
  | guest g => trivial

theorem reaches_newBlock (block : Block) (delta : Delta) (t : Member γ) (fx : Effects)
    (h : t.Reaches r) : (newBlock block delta (t, fx)).2.1.Reaches r := by
  cases t with
  | durable b => exact h
  | memory b => trivial
  | tail t => trivial
  | guest g => trivial

/-- A durable bulletin never announces a round below its latest one. -/
theorem reaches_released (k : Ticket) (t : Member γ) (fx : Effects) (h : t.Reaches r) :
    (notice .released k (t, fx)).2.1.Reaches r := by
  cases t with
  | durable b =>
    show r ≤ (Bulletin.announceLanded k (b, fx)).2.1.latest
    cases hnew : k.range.newBase with
    | error f =>
      have hsame : Bulletin.announceLanded k (b, fx) = (.error f, b, fx) := by
        simp only [Bulletin.announceLanded, Ticket.newBase, hnew]
      rw [hsame]
      exact h
    | ok newBase =>
      rw [Bulletin.announceLanded_eq hnew]
      rcases Bulletin.announce_cases newBase b fx with ⟨-, heq⟩ | ⟨-, hannounced⟩
      · rw [heq]
        exact h
      · rw [hannounced.latest]
        exact Nat.le_trans h hannounced.notBelow
  | memory b => trivial
  | tail t => trivial
  | guest g => trivial

end Member

section Reaching

variable [Guest γ] [KeepsRange γ] {r : Round}

/-- Nothing that is done to a pipeline lets a durable bulletin fall behind a stored round that it
has announced. -/
theorem Operation.reaches_run (operation : Operation) {p : Pipeline (Member γ)}
    (hle : r ≤ p.store.round) (hp : ∀ t ∈ p.trackers, t.Reaches r) :
    ∀ t ∈ (operation.run p).trackers, t.Reaches r := by
  cases operation with
  | load ledger =>
    exact (Pipeline.load_forall (I := fun _ => True)
      (fun t fx _ _ => ⟨Member.reaches_load hle ledger p.store t fx, trivial⟩)
      (fun block delta t fx ht _ => ⟨Member.reaches_newBlock block delta t fx ht, trivial⟩)
      hp trivial).1
  | newBlock block delta =>
    exact (Pipeline.ask_forall (I := fun _ => True)
      (fun t fx ht _ => ⟨Member.reaches_newBlock block delta t fx ht, trivial⟩) hp trivial).1
  | close =>
    have hask := (Pipeline.ask_forall (I := fun _ => True) (a := Tracker.close)
      (fun t fx ht _ => ⟨.of_sameBoards (Member.sameBoards_close t fx).1 ht, trivial⟩) hp
      trivial).1
    rw [run]
    rcases Pipeline.close_cases p with heq | heq <;> rw [heq] <;> exact hask
  | request request =>
    refine request.run_preserves (I := fun q => ∀ t ∈ q.trackers, t.Reaches r) ?_ ?_ hp
    · exact fun hsteady h =>
        hsteady.forall_trackers (fun hsteady => .of_sameBoards hsteady.sameBoards) h
    · -- Up to the transaction a cycle is steady; behind it bulletins only go on.
      intro p k newBase k' q h hwrites
      have hq : ∀ t ∈ q.trackers, t.Reaches r :=
        hwrites.steady.forall_trackers (fun hsteady => .of_sameBoards hsteady.sameBoards) h
      exact (Pipeline.settleLanded_forall (I := fun _ => True)
        (fun t fx ht _ =>
          ⟨.of_sameBoards (Member.sameBoards_notice (n := .landed) (by simp) _ t fx).1 ht, trivial⟩)
        (fun t fx ht _ => ⟨Member.reaches_released _ t fx ht, trivial⟩) hq trivial).1

theorem Bulletin.latest_wait {b b' : Bulletin} {board signals : SignalBoard} {q : Round}
    {handle : Handle} (h : b.wait board q = (handle, b', signals)) : b'.latest = b.latest := by
  rcases b.wait_cases board q with ⟨-, heq⟩ | ⟨s', -, heq⟩ | heq <;> rw [heq] at h <;>
    obtain ⟨-, rfl, -⟩ := h <;> rfl

/-- In a session durable bulletins never fall behind a stored round that they have announced. -/
theorem Session.reaches_run {s s' : Session γ} (hs : s.pipeline.Truthful s.given)
    (hle : r ≤ s.pipeline.store.round) (hp : ∀ t ∈ s.pipeline.trackers, t.Reaches r)
    (h : Relation.ReflTransGen Step s s') : ∀ t ∈ s'.pipeline.trackers, t.Reaches r := by
  have hall : s'.pipeline.Truthful s'.given ∧ r ≤ s'.pipeline.store.round ∧
      ∀ t ∈ s'.pipeline.trackers, t.Reaches r := by
    induction h with
    | refl => exact ⟨hs, hle, hp⟩
    | tail _ hstep ih =>
      obtain ⟨htruthful, hle, hreaches⟩ := ih
      obtain ⟨htruthful', hlater⟩ := World.truthful_session htruthful hstep
      refine ⟨htruthful', Nat.le_trans hle hlater.round_le, ?_⟩
      cases hstep with
      | operate operation => exact operation.reaches_run hle hreaches
      | @waitDurable before after b b' _ _ _ htrackers hwait =>
        -- A wait changes which rounds are pending, not how far the bulletin has come.
        have hb : r ≤ b.latest := hreaches (.durable b) (by
          rw [htrackers]
          exact List.mem_append_right _ List.mem_cons_self)
        have hb' : r ≤ b'.latest := Bulletin.latest_wait hwait ▸ hb
        exact Pipeline.forall_replaced htrackers hreaches hb'
      | waitMemory htrackers hwait =>
        exact Pipeline.forall_replaced htrackers hreaches trivial
  exact hall.2.2

end Reaching

/-- Let sessions over one database start, go on, be stopped and crash in any order. A handle that a
durable bulletin gave for a round and that is ready at some point is for a round that is stored at
that point; it is ready ever after and the round stored ever after. After every later load that ends
well, the bulletins of the new session answer a wait for that round by a handle that is ready. -/
theorem ready_le_stored [Guest γ] [KeepsRange γ] {w w' : World γ} (hw : w.Reachable)
    (hlater : Relation.ReflTransGen World.Step w w') {r : Round} {handle : Handle}
    (hgiven : (r, handle) ∈ w.given) (hready : handle.isReady w.signals) :
    r ≤ w.store.round ∧ r ≤ w'.store.round ∧ handle.isReady w'.signals ∧
      ∀ (s : Session γ) (ledger : LedgerView) (q : Pipeline (Member γ)) (s' : Session γ),
        w' = .up s → s.pipeline.load ledger = (.ok (), q) →
          Relation.ReflTransGen Session.Step ⟨q, s.given⟩ s' →
            ∀ b, Member.durable b ∈ s'.pipeline.trackers →
              (b.wait s'.pipeline.effects.signals r).1 = .ready := by
  have htruthful := World.truthful_of_reachable hw
  obtain ⟨htruthful', hround, hfired, hkept⟩ := World.truthful_run htruthful hlater
  have hready' : handle.isReady w'.signals := by
    cases handle with
    | ready => rfl
    | on s => exact hfired s hready
  have hle : r ≤ w.store.round := by
    cases w with
    | down m given => exact htruthful.ready_le r handle hgiven hready
    | up s => exact htruthful.board.ready_le r handle hgiven hready
  refine ⟨hle, Nat.le_trans hle hround, hready', ?_⟩
  rintro s ledger q s' rfl hload hsession b hb
  have hstored : r ≤ s.pipeline.store.round := Nat.le_trans hle hround
  -- The bulletins of the session begin at the stored round, and do not fall back behind it.
  have hreaches := Pipeline.load_forall_of_ok
    (fun t fx => Member.reaches_load hstored ledger s.pipeline.store t fx)
    (fun block delta t fx => Member.reaches_newBlock block delta t fx) hload
  have honward := Pipeline.onward_load ledger htruthful'
  rw [hload] at honward
  have hlatest : r ≤ b.latest := Session.reaches_run (s := ⟨q, s.given⟩) honward.truthful
    (Nat.le_trans hstored honward.round_le) hreaches hsession (.durable b) hb
  rw [Bulletin.wait, if_pos hlatest]

/-- A pipeline with one durable bulletin, opened over an empty database. -/
def openedOnce : Pipeline (Member Tame) :=
  { trackers := [.durable {}], config := {}, store := .empty }

/-- The same, loaded, with somebody waiting for round one. -/
def waitedOnce : Pipeline (Member Tame) :=
  ((Operation.load { latest := ⟨1⟩, block := fun _ => none }).run openedOnce).putBack
    [.durable { pending := RoundTable.empty.insert ⟨1⟩ 0 }] { made := 1 }

/-- The same after round one has landed. -/
def landedOnce : Pipeline (Member Tame) :=
  (Operation.request (.commit ⟨⟨.zero, 1, 0⟩, ⟨1⟩, false⟩)).run waitedOnce

/-- A reader waits for round one, a cycle makes it durable, the program crashes in the report that
follows, and is started again. -/
theorem ready_le_stored_restarted :
    ∃ w w' : World Tame, w.Reachable ∧ Relation.ReflTransGen World.Step w w' ∧
      (⟨1⟩, .on 0) ∈ w.given ∧ Handle.isReady w.signals (.on 0) ∧
        (⟨1⟩ : Round) ≤ w'.store.round := by
  have hfresh : ∀ t ∈ [(.durable {} : Member Tame)], t.Fresh := by
    simp [Member.Fresh]
  have hstart := @World.Step.start Tame _ ⟨.empty, {}⟩ [] [.durable {}] {} [] openedOnce hfresh rfl
  have hload := Session.Step.operate ⟨openedOnce, []⟩
    (.load { latest := ⟨1⟩, block := fun _ => none })
  have hwait := @Session.Step.waitDurable Tame _
    ⟨(Operation.load { latest := ⟨1⟩, block := fun _ => none }).run openedOnce, []⟩ [] [] {} _ ⟨1⟩
    (.on 0) _ rfl rfl
  have hland := Session.Step.operate ⟨waitedOnce, [(⟨1⟩, .on 0)]⟩
    (.request (.commit ⟨⟨.zero, 1, 0⟩, ⟨1⟩, false⟩))
  have hreachable : (World.up ⟨landedOnce, [(⟨1⟩, .on 0)]⟩).Reachable :=
    ⟨.empty, .head hstart (.head (.go hload) (.head (.go hwait) (.single (.go hland))))⟩
  -- The crash comes before any tracker has answered the report.
  have hcrash := @World.Step.crash Tame _ ⟨landedOnce, [(⟨1⟩, .on 0)]⟩ (.request (.report ⟨1⟩))
    landedOnce.remains (.report (.needing rfl ⟨0, .start (Nat.le_refl _) fun _ h => h⟩))
  have hagain := @World.Step.start Tame _ landedOnce.remains [(⟨1⟩, .on 0)] [.durable {}] {} [] _
    hfresh rfl
  have hlater := Relation.ReflTransGen.head hcrash (.single hagain)
  exact ⟨_, _, hreachable, hlater, List.mem_singleton_self _, rfl,
    (ready_le_stored hreachable hlater (List.mem_singleton_self _) rfl).2.1⟩

end CommitPipeline
