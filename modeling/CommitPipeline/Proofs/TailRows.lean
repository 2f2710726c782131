import CommitPipeline.Proofs.Committed
import CommitPipeline.Proofs.Deliveries
import CommitPipeline.Proofs.Moves
import CommitPipeline.Proofs.Restart

/-!
# The rows of the tail

A database that was empty at first is used in sessions, each with one block tail that retains a
number of rounds of its own. Whatever the other trackers do short of writing rows of the tail or
altering ranges, and wherever a session is stopped or crashes, the table of the tail holds a window:
from the highest floor that a committed transaction left up to the stored round.

The module introduces:

* `Written`, `Past` — the transactions committed so far, and the blocks that reached tails;
* `Chronicle` — a database with its past, between two sessions or in one;
* `Store.Follows` — what the transactions committed so far say of the table;
* `tail_rows_exact` — the table has a row for every round of the window and no other, each with the
  summary of the block that had reached the tail when the round became durable.
-/

namespace CommitPipeline

/-- A transaction that was committed. -/
structure Written where
  /-- The durable round it builds on. -/
  base : Round
  /-- The new durable round. -/
  newBase : Round
  /-- How many rounds the tail retained that wrote its rows. -/
  retain : UInt64
  /-- The blocks that had reached tails before, the latest one first. -/
  handed : List Block

namespace Written

/-- The lowest round that the window of the new durable round keeps. -/
def floor (w : Written) : Nat := w.newBase.toNat + 1 - w.retain.toNat

/-- The rounds that became durable by the transaction. -/
def Covers (w : Written) (r : Round) : Prop := w.base < r ∧ r ≤ w.newBase

end Written

/-- The highest floor of some transactions, zero if there are none. -/
def highestFloor (written : List Written) : Nat := (written.map Written.floor).foldr max 0

/-- What has happened to a database. -/
structure Past where
  /-- The blocks that reached tails, the latest one first. -/
  handed : List Block := []
  /-- The transactions that were committed, the latest one first. -/
  written : List Written := []

namespace Past

/-- More blocks have reached the tail. -/
def hand (past : Past) (blocks : List Block) : Past := { past with handed := blocks ++ past.handed }

/-- A transaction was committed. -/
def commit (past : Past) (base newBase : Round) (retain : UInt64) : Past :=
  { past with written := ⟨base, newBase, retain, past.handed⟩ :: past.written }

end Past

/-! ## What the transactions left -/

/-- The table of the tail as the transactions say. -/
structure Store.Follows (written : List Written) (store : Store) : Prop where
  held : ∀ r, (store.get? tailTable r).isSome ↔
    0 < r.toNat ∧ highestFloor written ≤ r.toNat ∧ r ≤ store.round
  floor_le : highestFloor written ≤ store.round.toNat
  newBase_le : ∀ w ∈ written, w.newBase ≤ store.round
  covered : ∀ r, 0 < r.toNat → r ≤ store.round → ∃ w ∈ written, w.Covers r
  row_eq : ∀ w ∈ written, ∀ r row, w.Covers r → store.get? tailTable r = some row →
    ∃ block, lastOf r w.handed = some block ∧ row = (Summary.ofBlock block).encode

namespace Store

variable {written : List Written} {store store' : Store}

/-- An empty database has no rows, and nothing was committed. -/
theorem follows_empty : Store.empty.Follows [] where
  held := by
    intro r
    have hnone : Store.empty.get? tailTable r = none := rfl
    rw [hnone]
    simp only [Option.isSome_none, Bool.false_eq_true, false_iff]
    rintro ⟨hpos, -, hle⟩
    exact absurd hpos (Nat.not_lt.mpr hle)
  floor_le := Nat.le_refl 0
  newBase_le := by simp
  covered := by
    intro r hpos hle
    exact absurd hpos (Nat.not_lt.mpr hle)
  row_eq := by simp

section Moves

variable {u : Tail} {blocks : List Block}

/-- The window moves on. It has no gap: no floor is above a durable round, so the rounds that come
in follow on those that stay. -/
theorem Follows.held_of_moves (h : store.Follows written) (hmoves : u.Moves store store')
    (r : Round) : (store'.get? tailTable r).isSome ↔
      0 < r.toNat ∧
        max (store'.round.toNat + 1 - u.retain.toNat) (highestFloor written) ≤ r.toNat ∧
          r ≤ store'.round := by
  have hold := h.held r
  have hbelow := h.floor_le
  have hpos := u.toNat_retain_pos
  have hle := Round.le_def.mp hmoves.le
  have hheld := hmoves.held r
  rw [hmoves.get?_eq]
  simp only [Round.lt_def, Round.le_def] at hold hheld ⊢
  -- A row is pruned, or new, or has stayed from before.
  by_cases hbehind : r.toNat < store'.round.toNat + 1 - u.retain.toNat
  · rw [if_pos hbehind]
    simp only [Option.isSome_none, Bool.false_eq_true, false_iff]
    omega
  rw [if_neg hbehind]
  by_cases hnew : store.round.toNat < r.toNat ∧ r.toNat ≤ store'.round.toNat
  · have hsome := hheld hnew.1 hnew.2
    rw [if_pos hnew, Option.isSome_map, hsome]
    simp only [true_iff]
    omega
  · rw [if_neg hnew, hold]
    omega

/-- The rows of the rounds that become durable are what the tail held of the blocks that had reached
it, and the rows before those stay what they were. -/
theorem Follows.row_eq_of_moves (h : store.Follows written) (hmoves : u.Moves store store')
    (hreflects : u.Reflects blocks store.round) {w : Written}
    (hw : w ∈ ⟨store.round, store'.round, u.retain, blocks⟩ :: written) {r : Round} {row : Bytes}
    (hcovers : w.Covers r) (hrow : store'.get? tailTable r = some row) :
    ∃ block, lastOf r w.handed = some block ∧ row = (Summary.ofBlock block).encode := by
  rw [hmoves.get?_eq, Option.ite_none_left_eq_some] at hrow
  obtain ⟨-, hrow⟩ := hrow
  rcases List.mem_cons.mp hw with rfl | hw
  · have hnew : store.round < r ∧ r ≤ store'.round := hcovers
    rw [if_pos hnew] at hrow
    obtain ⟨sm, hget, rfl⟩ := Option.map_eq_some_iff.mp hrow
    obtain ⟨block, hlast, rfl⟩ := hreflects r sm hnew.1 hget
    exact ⟨block, hlast, rfl⟩
  · have hold : r ≤ store.round := Nat.le_trans hcovers.2 (h.newBase_le w hw)
    rw [if_neg fun hnew => absurd hnew.1 (Nat.not_lt.mpr hold)] at hrow
    exact h.row_eq w hw r row hcovers hrow

/-- The table goes on following the transactions. -/
theorem Follows.commit (h : store.Follows written) (hmoves : u.Moves store store')
    (hreflects : u.Reflects blocks store.round) :
    store'.Follows (⟨store.round, store'.round, u.retain, blocks⟩ :: written) where
  held := h.held_of_moves hmoves
  floor_le := by
    have hbelow := h.floor_le
    have hpos := u.toNat_retain_pos
    have hle := Round.le_def.mp hmoves.le
    show max (store'.round.toNat + 1 - u.retain.toNat) (highestFloor written) ≤ _
    omega
  newBase_le := by
    intro w hw
    rcases List.mem_cons.mp hw with rfl | hw
    · exact Nat.le_refl _
    · exact Nat.le_trans (h.newBase_le w hw) hmoves.le
  covered := by
    intro r hr hr'
    -- A row is of the new range or was covered before.
    rcases Nat.lt_or_ge store.round.toNat r.toNat with hnew | hold
    · exact ⟨_, List.mem_cons_self, hnew, hr'⟩
    · obtain ⟨w, hw, hcovers⟩ := h.covered r hr hold
      exact ⟨w, List.mem_cons_of_mem _ hw, hcovers⟩
  row_eq w hw r row hcovers hrow := h.row_eq_of_moves hmoves hreflects hw hcovers hrow

end Moves

end Store

/-! ## Sessions over one database -/

variable {γ : Type}

/-- A database with its past, between two sessions or in one. -/
inductive Chronicle (γ : Type) where
  | down (store : Store) (past : Past)
  | up (pipeline : Pipeline (Member γ)) (past : Past)

namespace Chronicle

/-- What the database holds. -/
def store : Chronicle γ → Store
  | down store _ => store
  | up p _ => p.store

/-- What has happened to it. -/
def past : Chronicle γ → Past
  | down _ past => past
  | up _ past => past

variable [Guest γ]

/-- What may happen to a database. A session starts with one tail, which holds nothing yet, and
whatever other trackers. It goes on by operations, at most one transaction being committed in each,
and by waits. It ends between two operations or within one, before a transaction was committed or
after it; some of the blocks of the operation may have reached the tail by then. -/
inductive Step : Chronicle γ → Chronicle γ → Prop
  | start {store : Store} {past : Past} {trackers : List (Member γ)} {config : Config}
      {effects : Effects} {p : Pipeline (Member γ)} (hsole : p.Sole)
      (hnew : ∀ u, .tail u ∈ trackers → ∃ retain, u = .keeping retain)
      (hopen : Pipeline.open? trackers config store effects = .ok p) :
      Step (down store past) (up p past)
  | operate {p : Pipeline (Member γ)} {past : Past} {operation : Operation}
      (hidle : ∀ newBase store, ¬operation.Commits p newBase store) :
      Step (up p past) (up (operation.run p) (past.hand (operation.handed p)))
  | commit {p : Pipeline (Member γ)} {past : Past} {operation : Operation} {newBase : Round}
      {store : Store} {u : Tail} (hu : .tail u ∈ p.trackers)
      (hcommits : operation.Commits p newBase store) :
      Step (up p past) (up (operation.run p) (past.commit p.durable newBase u.retain))
  | wait (p : Pipeline (Member γ)) (past : Past) (place : Nat) (r : Round) :
      Step (up p past) (up (p.waitAt place r) past)
  | crash {p : Pipeline (Member γ)} {past : Past} {operation : Operation} {blocks : List Block}
      (hblocks : blocks <:+ operation.handed p) : Step (up p past) (down p.store (past.hand blocks))
  | crashBehind {p : Pipeline (Member γ)} {past : Past} {operation : Operation} {newBase : Round}
      {store : Store} {u : Tail} (hu : .tail u ∈ p.trackers)
      (hcommits : operation.Commits p newBase store) :
      Step (up p past) (down store (past.commit p.durable newBase u.retain))

/-- What may become of an empty database. -/
def Reachable (c : Chronicle γ) : Prop := Relation.ReflTransGen Step (down .empty {}) c

end Chronicle

/-! ## In a session -/

namespace Pipeline

variable {p q : Pipeline (Member γ)} {past : Past}

/-- What holds of a pipeline in a session: it has one tail, which reflects the blocks that reached
it, the durable round of a loaded pipeline is the stored one, and the table follows the
transactions. -/
structure Recounts (past : Past) (p : Pipeline (Member γ)) : Prop where
  sole : p.Sole
  level : p.loaded → p.durable = p.store.round
  reflects : p.Reflects past.handed
  follows : p.store.Follows past.written

theorem Recounts.of_steady (hsteady : p.Steady q) (h : p.Recounts past) : q.Recounts past where
  sole := h.sole.of_kinds (kinds_of_steady hsteady)
  level hloaded := by
    rw [hsteady.durable, hsteady.store]
    exact h.level (hsteady.loaded ▸ hloaded)
  reflects := h.reflects.of_steady hsteady
  follows := hsteady.store ▸ h.follows

/-- What a pipeline has that is opened over a database: its tail holds nothing yet. -/
theorem recounts_open {trackers : List (Member γ)} {config : Config} {effects : Effects}
    {store : Store} (hopen : open? trackers config store effects = .ok p) (hsole : p.Sole)
    (hnew : ∀ u, .tail u ∈ trackers → ∃ retain, u = .keeping retain)
    (hfollows : store.Follows past.written) : p.Recounts past := by
  have hp := open?_eq_ok hopen
  refine ⟨hsole, ?_, ?_, ?_⟩
  · rw [hp]
    intro hloaded
    cases hloaded
  · obtain ⟨u, hu⟩ := hsole.exists_tail
    refine hsole.forall_trackers hu ?_ fun t ht => Member.reflects_of_not_tail ht
    rw [hp] at hu
    obtain ⟨retain, rfl⟩ := hnew u hu
    intro r sm hr hget
    have hempty : (Tail.keeping retain).entries = .empty := by
      unfold Tail.keeping
      split <;> rfl
    rw [hempty] at hget
    cases hget
  · rw [hp]
    exact hfollows

/-- Whoever is asked for a handle stays where he is. -/
theorem kinds_waitAt (place : Nat) (r : Round) (p : Pipeline (Member γ)) :
    (p.waitAt place r).kinds = p.kinds := by
  unfold waitAt
  split
  · rfl
  next t hplace =>
  obtain ⟨hlt, rfl⟩ := List.getElem?_eq_some_iff.mp hplace
  have hkind : (p.trackers[place].wait r p.effects.signals).1.kind = p.trackers[place].kind := by
    cases p.trackers[place] <;> rfl
  show (p.trackers.set place (p.trackers[place].wait r p.effects.signals).1).map Member.kind = _
  rw [List.map_set, hkind, ← List.map_set, List.set_getElem_self]
  rfl

/-- A handle is given by a bulletin, and that is all that a wait touches. -/
theorem recounts_waitAt (place : Nat) (r : Round) (h : p.Recounts past) :
    (p.waitAt place r).Recounts past := by
  have hframe : (p.waitAt place r).store = p.store ∧ (p.waitAt place r).durable = p.durable ∧
      (p.waitAt place r).loaded = p.loaded := by
    unfold waitAt
    split <;> exact ⟨rfl, rfl, rfl⟩
  obtain ⟨hstore, hdurable, hloaded⟩ := hframe
  refine ⟨h.sole.of_kinds (kinds_waitAt place r p), ?_, ?_, hstore ▸ h.follows⟩
  · rw [hstore, hdurable, hloaded]
    exact h.level
  · unfold Reflects
    rw [hstore]
    refine forall_waitAt ?_ place r h.reflects
    intro t r board ht
    cases t with
    | tail u => exact ht
    | memory b => trivial
    | durable b => trivial
    | guest g => trivial

variable [Guest γ] [KeepsRange γ]

/-- What an operation keeps that commits no transaction. -/
theorem recounts_of_idle {operation : Operation}
    (hidle : ∀ newBase store, ¬operation.Commits p newBase store) (h : p.Recounts past) :
    (operation.run p).Recounts (past.hand (operation.handed p)) := by
  have hsole := h.sole.of_kinds (operation.kinds_run p)
  cases operation with
  | load ledger =>
    obtain ⟨hstore, hround⟩ := load_frame ledger p
    refine ⟨hsole, ?_, reflects_load ledger h.sole h.reflects, ?_⟩
    · -- A load that fails leaves pipeline and store level if they were.
      intro hloaded
      rw [Operation.run, hstore]
      rcases hround with ⟨-, hdurable, -⟩ | ⟨-, hdurable, hsame⟩
      · exact hdurable
      · rw [hdurable]
        exact h.level (hsame ▸ hloaded)
    · rw [Operation.run, hstore]
      exact h.follows
  | newBlock block delta =>
    exact ⟨hsole, h.level, reflects_newBlock block delta h.sole h.reflects, h.follows⟩
  | close =>
    refine ⟨hsole, ?_, reflects_close h.reflects, ?_⟩
    · rw [Operation.run]
      rcases close_cases p with heq | heq <;> rw [heq] <;> exact h.level
    · rw [Operation.run]
      rcases close_cases p with heq | heq <;> rw [heq] <;> exact h.follows
  -- A request that commits nothing is steady.
  | request request =>
    apply h.of_steady
    apply request.steady_of_idle
    intro newBase store hcommits
    exact hidle newBase store (.request hcommits)

/-- What a request keeps that commits a transaction, and what the database has from there on. -/
theorem recounts_of_commits [SparesTail γ] {request : Request} {newBase : Round} {store : Store}
    {u : Tail} (hu : .tail u ∈ p.trackers) (hcommits : request.Commits p newBase store)
    (h : p.Recounts past) :
    (request.run p).Recounts (past.commit p.durable newBase u.retain) ∧
      store.Follows (past.commit p.durable newBase u.retain).written := by
  obtain ⟨p₀, k, k', q, hbefore, hwrites, rfl, hafter⟩ := hcommits.writes
  have h₀ := h.of_steady hbefore
  have hlevel : p₀.durable = p₀.store.round := h₀.level hwrites.loaded
  obtain ⟨staged, hu₀⟩ := exists_tail_of_steady hbefore h.sole hu
  have hmoves := moves_of_writes hwrites h₀.sole hlevel hu₀
  have hfollows : q.store.Follows (past.commit p.durable newBase u.retain).written := by
    have hcommit := h₀.follows.commit hmoves (h₀.reflects _ hu₀)
    rw [← hlevel, hbefore.durable, hwrites.stored] at hcommit
    exact hcommit
  obtain ⟨hstore, hdurable, -⟩ := settleLanded_frame (q := q) newBase k'
  -- Whoever is told of the landing, the database stays as it was committed.
  refine ⟨Recounts.of_steady hafter ?_, hfollows⟩
  refine ⟨?_, ?_, ?_, ?_⟩
  · have hkinds := kinds_of_steady hwrites.steady
    refine h₀.sole.of_kinds ?_
    rw [kinds_settleLanded]
    exact hkinds
  · rw [hstore, hdurable, hwrites.stored]
    exact fun _ => rfl
  -- What the tail holds above the new durable round lies above the old one as well.
  · apply reflects_settleLanded
    refine Reflects.of_steady hwrites.steady ?_
    intro t ht
    have hmono : t.Reflects past.handed p₀.store.round := h₀.reflects t ht
    exact hmono.mono hmoves.le
  · rw [hstore]
    exact hfollows

end Pipeline

/-! ## At every point -/

namespace Chronicle

variable [Guest γ] {c c' : Chronicle γ}

/-- What holds at every point. -/
def Kept : Chronicle γ → Prop
  | down store past => store.Follows past.written
  | up p past => p.Recounts past

omit [Guest γ] in
theorem Kept.follows (h : c.Kept) : c.store.Follows c.past.written := by
  cases c with
  | down store past => exact h
  | up p past => exact Pipeline.Recounts.follows h

theorem kept_step [KeepsRange γ] [SparesTail γ] (h : c.Kept) (hstep : c.Step c') : c'.Kept := by
  cases hstep with
  | start hsole hnew hopen => exact Pipeline.recounts_open hopen hsole hnew h
  | operate hidle => exact Pipeline.recounts_of_idle hidle h
  | commit hu hcommits =>
    cases hcommits with
    | request hcommits => exact (Pipeline.recounts_of_commits hu hcommits h).1
  | wait p past place r => exact Pipeline.recounts_waitAt place r h
  | @crash p past operation blocks hblocks =>
    have h : p.Recounts past := h
    exact h.follows
  | crashBehind hu hcommits =>
    cases hcommits with
    | request hcommits => exact (Pipeline.recounts_of_commits hu hcommits h).2

theorem kept_of_reachable [KeepsRange γ] [SparesTail γ] (h : c.Reachable) : c.Kept := by
  induction h with
  | refl => exact Store.follows_empty
  | tail _ hstep ih => exact kept_step ih hstep

end Chronicle

/-- Let a database that was empty at first go through any number of sessions, each with one tail
that retains any number of rounds, and with guests that may object, fail and be cut short wherever
they like but neither alter ranges nor write rows of the tail. At every point, also right after a
crash, the table of the tail has one row for each round from the highest floor that a committed
transaction left up to the stored round, round zero being none, and no other row. Each of these
rounds became durable by a committed transaction, and its row is the summary of the block that had
reached the tail last for that round when the transaction began. -/
theorem tail_rows_exact [Guest γ] [KeepsRange γ] [SparesTail γ] {c : Chronicle γ}
    (h : c.Reachable) :
    (c.store.table tailTable).rounds.map Round.toNat =
        List.range' (max 1 (highestFloor c.past.written))
          (c.store.round.toNat + 1 - max 1 (highestFloor c.past.written)) ∧
      ∀ r row, c.store.get? tailTable r = some row →
        (∃ w ∈ c.past.written, w.Covers r) ∧
          ∀ w ∈ c.past.written, w.Covers r →
            ∃ block, lastOf r w.handed = some block ∧
              Summary.decode row = .ok (.ofBlock block) := by
  have hfollows := (Chronicle.kept_of_reachable h).follows
  -- Both halves are read off the invariant, which says which rounds have rows, and whose they are.
  refine ⟨?_, ?_⟩
  · apply RoundTable.rounds_eq_range' c.store.round.toNat_lt
    intro r
    have hheld := hfollows.held r
    rw [Round.le_def] at hheld
    rw [← Store.get?, hheld]
    omega
  · intro r row hrow
    obtain ⟨hpos, -, hle⟩ := (hfollows.held r).mp (Option.isSome_of_mem hrow)
    refine ⟨hfollows.covered r hpos hle, ?_⟩
    intro w hw hcovers
    obtain ⟨block, hlast, rfl⟩ := hfollows.row_eq w hw r row hcovers hrow
    exact ⟨block, hlast, Summary.decode_encode _⟩

/-- A guest that is cut short in hearing that a cycle has landed. -/
inductive Startled where
  | startled

instance : Guest Startled where
  name _ := "startled"
  load _ _ _ g := (.ok (), g)
  newBlock _ _ g := (.ok (), g)
  need committed g := (.ok ⟨committed, 0⟩, g)
  refine _ _ range g := (.ok (some range), g)
  prepare := fun (g, k) => (.ok (), g, k)
  write := fun (g, k, s) => (.ok (), g, k, s)
  notice n _ g := if n = .landed then (.error (.raised "startled"), g) else (.ok (), g)
  close g := (.ok (), g)

instance : KeepsRange Startled := ⟨fun _ _ => rfl, fun _ _ _ => rfl⟩

instance : SparesTail Startled := ⟨fun _ _ _ => rfl⟩

/-- A startled guest and a tail behind it, over some database. -/
def startledOver (store : Store) (retain : UInt64) : Pipeline (Member Startled) :=
  { trackers := [.guest .startled, .tail (.keeping retain)], config := {}, store }

/-- The first session once it was loaded from a ledger of four blocks: the tail retains three. -/
def startledOnce : Pipeline (Member Startled) :=
  ((startledOver .empty 3).load (plainSeries.upTo ⟨4⟩)).2

/-- All four become durable, and the session crashes. -/
def startledStore : Store := (Request.run (.commit ⟨⟨.zero, 4, 0⟩, ⟨4⟩, false⟩) startledOnce).store

/-- The second session once it was loaded from a ledger of five blocks: the tail retains five. -/
def startledTwice : Pipeline (Member Startled) :=
  ((startledOver startledStore 5).load (plainSeries.upTo ⟨5⟩)).2

/-- A session that retains three rounds lands four and is cut short before its tail hears of it, and
a later one that retains five crashes right behind its transaction. The rows that the first one
deleted stay deleted. -/
theorem tail_rows_exact_startled :
    ∃ c : Chronicle Startled, c.Reachable ∧ c.store.round = ⟨5⟩ ∧
      (c.store.table tailTable).rounds.map Round.toNat = [2, 3, 4, 5] := by
  have hnew : ∀ store retain u, (.tail u : Member Startled) ∈ (startledOver store retain).trackers →
      ∃ retain, u = .keeping retain := by
    intro store retain u hu
    exact ⟨retain, by simpa [startledOver] using hu⟩
  obtain ⟨u, hu, hretain⟩ : ∃ u, .tail u ∈ startledOnce.trackers ∧ u.retain = 3 :=
    ⟨_, List.mem_cons_of_mem _ List.mem_cons_self, rfl⟩
  obtain ⟨u', hu', hretain'⟩ : ∃ u, .tail u ∈ startledTwice.trackers ∧ u.retain = 5 :=
    ⟨_, List.mem_cons_of_mem _ List.mem_cons_self, rfl⟩
  obtain ⟨k, q, hwrites⟩ :
      ∃ k q, startledOnce.Writes ⟨⟨.zero, 4, 0⟩, ⟨4⟩, false⟩ ⟨4⟩ k q :=
    ⟨_, _, rfl, rfl, _, _, rfl, rfl, rfl⟩
  obtain ⟨k', q', hwrites'⟩ :
      ∃ k q, startledTwice.Writes ⟨⟨⟨4⟩, 1, 0⟩, ⟨5⟩, false⟩ ⟨5⟩ k q :=
    ⟨_, _, rfl, rfl, _, _, rfl, rfl, rfl⟩
  -- A load writes nothing.
  have hidle : ∀ (p : Pipeline (Member Startled)) ledger newBase store,
      ¬(Operation.load ledger).Commits p newBase store := by
    intro p ledger newBase store h
    cases h
  have hstart := @Chronicle.Step.start Startled _ .empty {} _ {} {} (startledOver .empty 3) rfl
    (hnew .empty 3) rfl
  have hload := @Chronicle.Step.operate Startled _ (startledOver .empty 3) {}
    (.load (plainSeries.upTo ⟨4⟩)) (hidle _ _)
  have hcommit := fun past => @Chronicle.Step.commit Startled _ startledOnce past _ _ _ u hu
    (.request (.commit hwrites))
  have hcrash := fun p past => @Chronicle.Step.crash Startled _ p past .close _ List.nil_suffix
  have hstart' := fun past => @Chronicle.Step.start Startled _ startledStore past _ {} {}
    (startledOver startledStore 5) rfl (hnew startledStore 5) rfl
  have hload' := fun past => @Chronicle.Step.operate Startled _ (startledOver startledStore 5) past
    (.load (plainSeries.upTo ⟨5⟩)) (hidle _ _)
  have hcommit' := fun past => @Chronicle.Step.crashBehind Startled _ startledTwice past _ _ _ u'
    hu' (.request (.commit hwrites'))
  have hreachable := Relation.ReflTransGen.head hstart (.head hload (.head (hcommit _)
    (.head (hcrash _ _) (.head (hstart' _) (.head (hload' _) (.single (hcommit' _)))))))
  rw [hretain, hretain'] at hreachable
  refine ⟨_, hreachable, hwrites'.stored, ?_⟩
  rw [(tail_rows_exact hreachable).1]
  -- The first transaction left the floor two, the second one the floor one.
  show List.range' (max 1 (max (5 + 1 - 5) (max (4 + 1 - 3) 0)))
    (q'.store.round.toNat + 1 - max 1 (max (5 + 1 - 5) (max (4 + 1 - 3) 0))) = _
  rw [hwrites'.stored]
  rfl

end CommitPipeline
