import CommitPipeline.Proofs.TailWindow
import Mathlib.Logic.Relation

/-!
# Restarts are invisible

A program over a database that was empty at first, with one memory bulletin, one durable bulletin
and one block tail, is given the blocks of a growing ledger in ascending order. Meanwhile it is
asked for anything but to close, and it may be restarted. Once all blocks were delivered, nothing
tells a program that was restarted from one that went on.

The module introduces:

* `Observation`, `Pipeline.observe` — what readers see of a crew;
* `Node`, `Node.Step`, `Node.Reachable` — a program beside its ledger, and what may become of it;
* `Node.Kept` — what holds of such a program at all times;
* `restart_invisible` — a restart succeeds and shows what was there before.
-/

namespace CommitPipeline

/-! ## What readers see -/

namespace Member

/-- The memory bulletin, if this is one. -/
def memory? : Own → Option Bulletin
  | memory b => some b
  | _ => none

/-- The durable bulletin, if this is one. -/
def durable? : Own → Option Bulletin
  | durable b => some b
  | _ => none

/-- The block tail, if this is one. -/
def tail? : Own → Option Tail
  | tail u => some u
  | _ => none

end Member

/-- What readers see of a crew. -/
structure Observation where
  /-- The durable round of the pipeline. -/
  durable : Round
  /-- The latest round of the memory bulletin. -/
  memoryLatest : Option Round
  /-- The latest round of the durable bulletin. -/
  durableLatest : Option Round
  /-- The rounds that the tail has in memory. -/
  heldRounds : Option (List Round)
  /-- What the tail answers for a round, from memory or from the store. -/
  entry : Round → Option (Except StoreError (Option Summary))

namespace Pipeline

variable {p q : Pipeline Own}

/-- What readers see, of the first tracker of each kind. -/
def observe (p : Pipeline Own) : Observation where
  durable := p.durable
  memoryLatest := (p.trackers.findSome? Member.memory?).map (·.latest)
  durableLatest := (p.trackers.findSome? Member.durable?).map (·.latest)
  heldRounds := (p.trackers.findSome? Member.tail?).map (·.entries.rounds)
  entry r := (p.trackers.findSome? Member.tail?).map (·.entry p.store r)

end Pipeline

namespace Crew

variable {s : Series} {retain : UInt64} {v : Progress} {trackers : List Own}

/-- A crew has a tracker of each of its kinds, and the first one is found. -/
theorem exists_findSome? {α : Type} {f : Own → Option α} {kind : Kind}
    (h : Crew retain (trackers.map Member.kind)) (hkind : kind ∈ [.tail retain, .memory, .durable])
    (hf : ∀ t : Own, t.kind = kind → (f t).isSome) :
    ∃ t ∈ trackers, ∃ a, f t = some a ∧ trackers.findSome? f = some a := by
  obtain ⟨t, ht, hkind⟩ := List.mem_map.mp (h.mem_iff.mpr hkind)
  have hfound : (trackers.findSome? f).isSome := by
    rw [List.isSome_findSome?, List.any_eq_true]
    exact ⟨t, ht, hf t hkind⟩
  obtain ⟨a, ha⟩ := Option.isSome_iff_exists.mp hfound
  obtain ⟨t', ht', hfirst⟩ := List.exists_of_findSome?_eq_some ha
  exact ⟨t', ht', a, hfirst, ha⟩

/-- A reader of the memory bulletin sees the last delivered round. -/
theorem memoryLatest_eq (h : Crew retain (trackers.map Member.kind))
    (hshows : ∀ t ∈ trackers, t.Shows s retain v) :
    (trackers.findSome? Member.memory?).map (·.latest) = some v.latest := by
  have hkind : ∀ t : Own, t.kind = .memory → t.memory?.isSome := by
    rintro (b | b | u | g) ht <;> first | rfl | exact nomatch ht
  obtain ⟨t, ht, b, hb, heq⟩ := h.exists_findSome? (by simp) hkind
  have hshown := hshows t ht
  cases t <;> cases hb
  rw [heq, Option.map_some]
  exact congrArg some hshown

/-- A reader of the durable bulletin sees the last announced round. -/
theorem durableLatest_eq (h : Crew retain (trackers.map Member.kind))
    (hshows : ∀ t ∈ trackers, t.Shows s retain v) :
    (trackers.findSome? Member.durable?).map (·.latest) = some v.announced := by
  have hkind : ∀ t : Own, t.kind = .durable → t.durable?.isSome := by
    rintro (b | b | u | g) ht <;> first | rfl | exact nomatch ht
  obtain ⟨t, ht, b, hb, heq⟩ := h.exists_findSome? (by simp) hkind
  have hshown := hshows t ht
  cases t <;> cases hb
  rw [heq, Option.map_some]
  exact congrArg some hshown

/-- The tail of a crew is found, and it shows what it has to. -/
theorem exists_shows (h : Crew retain (trackers.map Member.kind))
    (hshows : ∀ t ∈ trackers, t.Shows s retain v) :
    ∃ u : Tail, trackers.findSome? Member.tail? = some u ∧ u.Shows s retain v := by
  have hkind : ∀ t : Own, t.kind = .tail retain → t.tail?.isSome := by
    rintro (b | b | u | g) ht <;> first | rfl | exact nomatch ht
  obtain ⟨t, ht, u, hu, heq⟩ := h.exists_findSome? (by simp) hkind
  have hshown := hshows t ht
  cases t <;> cases hu
  exact ⟨u, heq, hshown⟩

end Crew

section Congr

variable {s : Series} {retain : UInt64} {v : Progress}

/-- Two tails that show the same have the same summaries in memory. -/
theorem Tail.Shows.entries_eq {u u' : Tail} (h : u.Shows s retain v) (h' : u'.Shows s retain v) :
    u.entries = u'.entries := by
  refine RoundTable.ext_get? fun r => Option.ext fun sm => ?_
  rw [h.2, h'.2]

/-- Two crews over one store that show the same are seen as the same. -/
theorem Pipeline.observe_eq {p q : Pipeline Own} (hp : Crew retain p.kinds)
    (hq : Crew retain q.kinds) (hstore : p.store = q.store) (hdurable : p.durable = q.durable)
    (hshows : ∀ t ∈ p.trackers, t.Shows s retain v)
    (hshows' : ∀ t ∈ q.trackers, t.Shows s retain v) : p.observe = q.observe := by
  obtain ⟨u, hu, hshown⟩ := hp.exists_shows hshows
  obtain ⟨u', hu', hshown'⟩ := hq.exists_shows hshows'
  have hentries := hshown.entries_eq hshown'
  -- Of the tail readers see its summaries in memory and, through the store, the rows behind them.
  unfold observe
  rw [hp.memoryLatest_eq hshows, hq.memoryLatest_eq hshows', hp.durableLatest_eq hshows,
    hq.durableLatest_eq hshows', hu, hu', hdurable, hstore]
  simp only [Option.map_some, Tail.entry, hentries]

/-- Whether round zero counts as delivered makes no difference. -/
theorem Member.Shows.congr {delivered : Round → Prop} {t : Own} (h : t.Shows s retain v)
    (hdelivered : ∀ r, 0 < r.toNat → (v.delivered r ↔ delivered r)) :
    t.Shows s retain { v with delivered } := by
  cases t with
  | memory b => exact h
  | durable b => exact h
  | tail u =>
    refine ⟨h.1, fun r sm => (h.2 r sm).trans ?_⟩
    -- A tail holds rounds of its window only, and round zero is in none.
    refine and_congr_right fun _ => and_congr_right fun hwindow => ?_
    rw [hdelivered r hwindow.1]
  | guest g => exact g.elim

end Congr

/-! ## A program beside its ledger -/

/-- A program beside a ledger that holds the blocks of a series up to some round. -/
structure Node where
  /-- The pipeline of the program. -/
  pipeline : Pipeline Own
  /-- The last round of the ledger. -/
  height : Round
  /-- The latest round that the pipeline was given. -/
  latest : Round
  /-- The rounds that the pipeline was given. -/
  delivered : Round → Prop

namespace Node

/-- A program right after a load, in which the whole ledger was replayed. -/
def loaded (pipeline : Pipeline Own) (height : Round) : Node where
  pipeline := pipeline
  height := height
  latest := height
  delivered := (· ≤ height)

/-- The progress of a program whose cycles were all announced. -/
def progress (n : Node) : Progress where
  durable := n.pipeline.durable
  announced := n.pipeline.durable
  latest := n.latest
  delivered := n.delivered

/-- The block of a round is delivered. -/
def deliver (s : Series) (n : Node) (r : Round) : Node :=
  { n with
    pipeline := (n.pipeline.newBlock (s.block r).1 (s.block r).2).2
    latest := r
    delivered := fun q => q = r ∨ n.delivered q }

/-- What may be asked of a program is anything but to close. Blocks of the ledger are delivered in
ascending order, and the ledger does not grow up to the last round there is. The trackers and the
settings of a program that was restarted are new, and so are its signals. -/
inductive Step (s : Series) (retain : UInt64) : Node → Node → Prop
  | grow {n : Node} {height : Round} (hgrown : n.height ≤ height)
      (hlimit : height.toNat + 1 < Round.limit) : Step s retain n { n with height }
  | deliver {n : Node} {r : Round} (hpos : 0 < r.toNat) (hascending : n.latest ≤ r)
      (hheld : r ≤ n.height) : Step s retain n (n.deliver s r)
  | request (n : Node) (request : Request) :
      Step s retain n { n with pipeline := request.run n.pipeline }
  | restart {n : Node} {trackers : List Own} {config : Config} {effects : Effects}
      {start p : Pipeline Own} (hcrew : Crew retain (trackers.map Member.kind))
      (hopen : Pipeline.open? trackers config n.pipeline.store effects = .ok start)
      (hload : start.load (s.upTo n.height) = (.ok (), p)) :
      Step s retain n (loaded p n.height)

/-- A program begins with an empty database, and a load that ends well from a ledger of some
height. -/
structure Begins (s : Series) (retain : UInt64) (n : Node) : Prop where
  height_lt : n.height.toNat + 1 < Round.limit
  opened : ∃ (trackers : List Own) (config : Config) (effects : Effects) (start : Pipeline Own),
    Crew retain (trackers.map Member.kind) ∧
      Pipeline.open? trackers config .empty effects = .ok start ∧
      start.load (s.upTo n.height) = (.ok (), n.pipeline)
  fresh : n = loaded n.pipeline n.height

/-- What may become of a program. -/
def Reachable (s : Series) (retain : UInt64) (n : Node) : Prop :=
  ∃ first, Begins s retain first ∧ Relation.ReflTransGen (Step s retain) first n

/-- What holds of a program at all times. -/
structure Kept (s : Series) (retain : UInt64) (n : Node) : Prop where
  height_lt : n.height.toNat + 1 < Round.limit
  current : n.pipeline.Current
  loaded : n.pipeline.loaded
  crew : Crew retain n.pipeline.kinds
  rows : n.pipeline.store.Rows s retain
  shows : ∀ t ∈ n.pipeline.trackers, t.Shows s retain n.progress
  durable_le : n.pipeline.durable ≤ n.latest
  delivered_le : ∀ r, n.delivered r → r ≤ n.latest
  latest_le : n.latest ≤ n.height

variable {s : Series} {retain : UInt64} {n n' : Node}

/-- A crew that is opened over a store whose table holds its window loads, leaves the store alone,
and what it gives is kept. -/
theorem kept_load {trackers : List Own} {config : Config} {store : Store} {effects : Effects}
    {start : Pipeline Own} {height : Round} (hcrew : Crew retain (trackers.map Member.kind))
    (hopen : Pipeline.open? trackers config store effects = .ok start) (hrows : store.Rows s retain)
    (hle : store.round ≤ height) (hlimit : height.toNat + 1 < Round.limit) :
    ∃ q, start.load (s.upTo height) = (.ok (), q) ∧ q.store = store ∧
      (Node.loaded q height).Kept s retain := by
  have hstart := Pipeline.open?_eq_ok hopen
  -- Nothing has been done to the pipeline but opening it.
  have hcrew : Crew retain start.kinds := by
    rw [hstart]
    exact hcrew
  obtain rfl : start.store = store := congrArg Pipeline.store hstart
  obtain ⟨q, hload, hshows⟩ := Pipeline.load_eq_ok hcrew hrows hle hlimit
  obtain ⟨hcurrent, hloaded, -⟩ := Pipeline.current_of_load hload
  have hstore := (Pipeline.load_frame (s.upTo height) start).1
  have hkinds := Pipeline.kinds_load (s.upTo height) start
  rw [hload] at hstore hkinds
  have hstore : q.store = start.store := hstore
  have hdurable : q.durable = start.store.round := hstore ▸ hcurrent.durable hloaded
  refine ⟨q, hload, hstore, ?_⟩
  exact {
    height_lt := hlimit
    current := hcurrent
    loaded := hloaded
    crew := hkinds ▸ hcrew
    rows := hstore ▸ hrows
    shows := by
      rw [← hdurable] at hshows
      exact hshows
    durable_le := hdurable ▸ hle
    delivered_le := fun _ h => h
    latest_le := Nat.le_refl _ }

/-- The empty database holds the window of round zero: nothing. -/
theorem rows_empty : Store.empty.Rows s retain := by
  intro r row
  simp only [Store.get?, Store.table_empty, RoundTable.get?_empty, reduceCtorEq, false_iff]
  rintro ⟨-, hwindow, hle⟩
  exact absurd hwindow.1 (Nat.not_lt.mpr hle)

/-- The invariant holds behind a start. -/
theorem kept_begins (h : n.Begins s retain) : n.Kept s retain := by
  obtain ⟨trackers, config, effects, start, hcrew, hopen, hload⟩ := h.opened
  obtain ⟨q, hload', -, hkept⟩ :=
    kept_load hcrew hopen rows_empty (Nat.zero_le _) h.height_lt
  have hq : q = n.pipeline := congrArg Prod.snd (hload'.symm.trans hload)
  rw [h.fresh, ← hq]
  exact hkept

/-- A request keeps it, as it does of any pipeline in use. -/
theorem Kept.of_request (h : n.Kept s retain) (request : Request) :
    Kept s retain { n with pipeline := request.run n.pipeline } := by
  have hinUse : n.pipeline.InUse s retain n.latest n.latest n.delivered :=
    ⟨h.current, h.loaded, h.crew, h.rows, h.shows, h.durable_le, h.delivered_le⟩
  have hrun := hinUse.of_request request
  exact {
    height_lt := h.height_lt
    current := hrun.current
    loaded := hrun.loaded
    crew := hrun.crew
    rows := hrun.rows
    shows := hrun.shows
    durable_le := hrun.durable_le
    delivered_le := h.delivered_le
    latest_le := h.latest_le }

/-- A delivery of a round that the ledger holds keeps it. -/
theorem Kept.of_deliver {r : Round} (h : n.Kept s retain) (hpos : 0 < r.toNat)
    (hascending : n.latest ≤ r) (hheld : r ≤ n.height) : (n.deliver s r).Kept s retain where
  height_lt := h.height_lt
  current := Pipeline.current_newBlock _ _ h.current
  loaded := h.loaded
  crew := by
    have hkinds : (n.pipeline.newBlock (s.block r).1 (s.block r).2).2.kinds = n.pipeline.kinds :=
      Pipeline.kinds_ask (Member.kind_newBlock _ _)
    exact hkinds ▸ h.crew
  rows := h.rows
  shows := by
    have hle : n.pipeline.durable ≤ r := Nat.le_trans h.durable_le hascending
    have hshows := (Pipeline.shows_newBlock hpos hle h.shows).2
    -- The round is not below the last one, so it is the last one now.
    have hlatest : max n.latest r = r := by
      rw [← Round.toNat_inj, Round.toNat_max, Nat.max_eq_right hascending]
    rw [Progress.deliver, show max n.progress.latest r = r from hlatest] at hshows
    exact hshows
  durable_le := Nat.le_trans h.durable_le hascending
  delivered_le := by
    rintro q (rfl | hdelivered)
    · exact Nat.le_refl _
    · exact Nat.le_trans (h.delivered_le q hdelivered) hascending
  latest_le := hheld

/-- Every step keeps it. -/
theorem kept_step (h : n.Kept s retain) (hstep : n.Step s retain n') : n'.Kept s retain := by
  cases hstep with
  | grow hgrown hlimit =>
    exact { h with height_lt := hlimit, latest_le := Nat.le_trans h.latest_le hgrown }
  | deliver hpos hascending hheld => exact h.of_deliver hpos hascending hheld
  | request request => exact h.of_request request
  -- Nothing of the old program is left but its database.
  | @restart trackers config effects start p hcrew hopen hload =>
    have hle : n.pipeline.store.round ≤ n.height := by
      rw [← h.current.durable h.loaded]
      exact Nat.le_trans h.durable_le h.latest_le
    obtain ⟨q, hload', -, hkept⟩ := kept_load hcrew hopen h.rows hle h.height_lt
    have hq : q = p := congrArg Prod.snd (hload'.symm.trans hload)
    exact hq ▸ hkept

/-- So it holds wherever steps lead, by induction on them. -/
theorem kept_of_reachable (h : n.Reachable s retain) : n.Kept s retain := by
  obtain ⟨first, hfirst, hsteps⟩ := h
  induction hsteps with
  | refl => exact kept_begins hfirst
  | tail _ hstep ih => exact kept_step ih hstep

/-- A program that was given every block is at the last round of the ledger. -/
theorem Kept.latest_eq (h : n.Kept s retain)
    (hall : ∀ r, 0 < r.toNat → r ≤ n.height → n.delivered r) : n.latest = n.height := by
  rw [← Round.toNat_inj]
  refine Nat.le_antisymm h.latest_le ?_
  rcases Nat.eq_zero_or_pos n.height.toNat with hzero | hpos
  · rw [hzero]
    exact Nat.zero_le _
  · exact h.delivered_le _ (hall _ hpos (Nat.le_refl _))

end Node

/-- Let anything happen to a program over a database that was empty at first: blocks of its growing
ledger are delivered in ascending order, reports come in, cycles land or fail or are stale, and the
program is restarted. Whenever every block of the ledger has been delivered, new trackers of the
same kinds with any settings load over the same database and ledger, and show what was shown
before. -/
theorem restart_invisible {s : Series} {retain : UInt64} {n : Node} (hn : n.Reachable s retain)
    (hall : ∀ r, 0 < r.toNat → r ≤ n.height → n.delivered r) {trackers : List Own} {config : Config}
    {effects : Effects} {start : Pipeline Own} (hcrew : Crew retain (trackers.map Member.kind))
    (hopen : Pipeline.open? trackers config n.pipeline.store effects = .ok start) :
    ∃ q, start.load (s.upTo n.height) = (.ok (), q) ∧ q.observe = n.pipeline.observe := by
  have hkept := Node.kept_of_reachable hn
  have hstored := hkept.current.durable hkept.loaded
  have hle : n.pipeline.store.round ≤ n.height := by
    rw [← hstored]
    exact Nat.le_trans hkept.durable_le hkept.latest_le
  obtain ⟨q, hload, hstore, hkept'⟩ := Node.kept_load hcrew hopen hkept.rows hle hkept.height_lt
  refine ⟨q, hload, ?_⟩
  have hdurable : q.durable = n.pipeline.durable := by
    have hstored' : q.durable = q.store.round := hkept'.current.durable hkept'.loaded
    rw [hstored', hstored, hstore]
  -- Both show the blocks up to the height of the ledger at the same durable round.
  have hprogress : ∀ t ∈ n.pipeline.trackers,
      t.Shows s retain (Node.loaded q n.height).progress := by
    intro t ht
    have hshown : t.Shows s retain { n.progress with delivered := (· ≤ n.height) } :=
      (hkept.shows t ht).congr fun r hpos =>
        ⟨fun h => Nat.le_trans (hkept.delivered_le r h) hkept.latest_le, hall r hpos⟩
    have heq : (Node.loaded q n.height).progress =
        { n.progress with delivered := (· ≤ n.height) } := by
      rw [Node.progress, Node.progress, hkept.latest_eq hall]
      simp only [Node.loaded, hdurable]
    rw [heq]
    exact hshown
  exact Pipeline.observe_eq hkept'.crew hkept.crew hstore hdurable hkept'.shows hprogress

/-- Blocks without transactions. -/
def plainSeries : Series where
  block r := (⟨⟨r, .zero, 0⟩, []⟩, .empty r)
  round_block _ := rfl

/-- A crew over a store whose tail retains two rounds. -/
def newCrew (store : Store) : Pipeline Own :=
  { trackers := [.memory {}, .durable {}, .tail (.keeping 2)], config := {}, store }

/-- A program that was started beside a ledger without blocks. -/
def startedNode : Node :=
  .loaded ((Operation.load (plainSeries.upTo .zero)).run (newCrew .empty)) .zero

/-- The program once the ledger has three blocks. -/
def awaitingNode : Node := { startedNode with height := ⟨3⟩ }

/-- The program once these were delivered. -/
def suppliedNode : Node :=
  ((awaitingNode.deliver plainSeries ⟨1⟩).deliver plainSeries ⟨2⟩).deliver plainSeries ⟨3⟩

/-- The program once two of them are durable. -/
def servedNode : Node :=
  { suppliedNode with
    pipeline := (Request.commit ⟨⟨.zero, 2, 0⟩, ⟨3⟩, false⟩).run suppliedNode.pipeline }

/-- Three blocks are delivered, of which two become durable. -/
theorem restart_invisible_partlyDurable :
    servedNode.Reachable plainSeries 2 ∧ servedNode.pipeline.durable = ⟨2⟩ ∧
      ∃ q, (newCrew servedNode.pipeline.store).load (plainSeries.upTo ⟨3⟩) = (.ok (), q) ∧
        q.observe = servedNode.pipeline.observe := by
  have hcrew : Crew 2 ((newCrew .empty).trackers.map Member.kind) :=
    show [Kind.memory, .durable, .tail 2].Perm [.tail 2, .memory, .durable] by decide
  have hbegins : startedNode.Begins plainSeries 2 :=
    ⟨by decide, ⟨_, {}, {}, newCrew .empty, hcrew, rfl, Prod.ext rfl rfl⟩, rfl⟩
  have hgrow := @Node.Step.grow plainSeries 2 startedNode ⟨3⟩ (by decide) (by decide)
  have hfirst := @Node.Step.deliver plainSeries 2 awaitingNode ⟨1⟩
    (by decide) (by decide) (by decide)
  have hsecond := @Node.Step.deliver plainSeries 2 (awaitingNode.deliver plainSeries ⟨1⟩) ⟨2⟩
    (by decide) (by decide) (by decide)
  have hthird := @Node.Step.deliver plainSeries 2
    ((awaitingNode.deliver plainSeries ⟨1⟩).deliver plainSeries ⟨2⟩) ⟨3⟩
    (by decide) (by decide) (by decide)
  have hcommit := @Node.Step.request plainSeries 2 suppliedNode
    (.commit ⟨⟨.zero, 2, 0⟩, ⟨3⟩, false⟩)
  have hreachable : servedNode.Reachable plainSeries 2 :=
    ⟨startedNode, hbegins,
      .head hgrow (.head hfirst (.head hsecond (.head hthird (.single hcommit))))⟩
  have hall : ∀ r, 0 < r.toNat → r ≤ servedNode.height → servedNode.delivered r := by
    intro r hpos hle
    have hle : r.toNat ≤ 3 := hle
    have hcases : r.toNat = 3 ∨ r.toNat = 2 ∨ r.toNat = 1 := by omega
    show r = ⟨3⟩ ∨ r = ⟨2⟩ ∨ r = ⟨1⟩ ∨ r ≤ .zero
    simp only [← Round.toNat_inj]
    exact hcases.imp_right fun h => h.imp_right .inl
  have hopen : Pipeline.open? (newCrew .empty).trackers {} servedNode.pipeline.store {} =
      .ok (newCrew servedNode.pipeline.store) := rfl
  exact ⟨hreachable, rfl, restart_invisible hreachable hall hcrew hopen⟩

end CommitPipeline
