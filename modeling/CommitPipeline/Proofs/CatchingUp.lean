import CommitPipeline.Proofs.CrewCycle
import Mathlib.Logic.Relation

/-!
# No report is lost while a cycle is in flight

A service is a crew beside its worker. Blocks are delivered and reports come in while the worker
takes tickets, runs their cycles and completes them. A report that meets a cycle in flight is only
remembered; the worker looks at it when it is done. So once nothing is in flight any more, all that
was reported is durable up to what the tail retains, or the last cycle was as long as a cycle may
be.

The module introduces:

* `Hand`, `Service`, `Service.Step` — the worker between its steps, and what may happen;
* `Fits` — a ticket for everything that is left to be made durable;
* `Service.Kept` — what holds at all times: above all where the mark of a cycle is;
* `report_caught_up` — what an idle service has made durable.
-/

namespace CommitPipeline

open Pipeline

/-- What the worker has in its hand. -/
inductive Hand where
  /-- Nothing: it is ready to take a ticket. -/
  | free
  /-- A ticket whose cycle was not run yet. -/
  | holding (ticket : Ticket)
  /-- A cycle it has run for a reported round and has still to complete. -/
  | ran (committed : Round)

/-- A crew beside its worker. -/
structure Service where
  /-- The pipeline. -/
  pipeline : Pipeline Own
  /-- The latest round that was delivered or loaded. -/
  latest : Round
  /-- What the worker has in its hand. -/
  hand : Hand
  /-- The cycle that landed last. -/
  last : Option Landing

/-- A ledger that holds every round from the first to its latest. -/
def LedgerView.Whole (ledger : LedgerView) : Prop :=
  ∀ r : Round, 0 < r.toNat → r ≤ ledger.latest →
    ∃ entry, ledger.block r = some entry ∧ entry.1.round = r

namespace Service

/-- The summaries of all rounds above the durable one are in memory. There are no more of them than
memory has room for, or no cycle is so long. -/
def Room (n : Service) : Prop :=
  min n.pipeline.config.maxRounds (n.latest.since n.pipeline.durable) ≤ Tail.maxStaged

instance (n : Service) : Decidable n.Room := inferInstanceAs (Decidable (_ ≤ _))

/-- A block is delivered. -/
def deliver (n : Service) (block : Block) (delta : Delta) : Service :=
  { n with pipeline := (n.pipeline.newBlock block delta).2, latest := block.round }

/-- A round is reported committed. -/
def report (n : Service) (round : Round) : Service :=
  { n with pipeline := (Request.report round).run n.pipeline }

/-- The worker runs the cycle of its ticket. -/
def work (n : Service) (k : Ticket) : Service :=
  { n with
    pipeline := (Request.work k).run n.pipeline
    hand := .ran k.committed
    last := ((Request.work k).landed? n.pipeline).or n.last }

/-- The worker completes the cycle it has run. -/
def complete (n : Service) (committed : Round) : Service :=
  { n with pipeline := (Request.complete committed).run n.pipeline, hand := .free }

/-- What may happen: the next round is delivered, a round is reported that was delivered or loaded,
and the worker takes a ticket, runs it, and completes it. -/
inductive Step : Service → Service → Prop
  | deliver {n : Service} {block : Block} {delta : Delta}
      (hnext : n.latest.next = .ok block.round) (hroom : (n.deliver block delta).Room) :
      Step n (n.deliver block delta)
  | report {n : Service} {round : Round} (hknown : round ≤ n.latest)
      (hlimit : round.toNat + 1 < Round.limit) : Step n (n.report round)
  | take {n : Service} {k : Ticket} {p : Pipeline Own} (hfree : n.hand = .free)
      (htake : n.pipeline.takeTicket = some (k, p)) :
      Step n { n with pipeline := p, hand := .holding k }
  | work {n : Service} {k : Ticket} (hholding : n.hand = .holding k) : Step n (n.work k)
  | complete {n : Service} {committed : Round} (hran : n.hand = .ran committed) :
      Step n (n.complete committed)

/-- A service begins with a crew that was opened over any store with a journal in which nothing
went wrong, that loads well from a ledger without gaps, and whose worker has started. -/
structure Begins (retain : UInt64) (n : Service) : Prop where
  opened : ∃ (trackers : List Own) (config : Config) (store : Store) (effects : Effects)
    (start loaded : Pipeline Own) (ledger : LedgerView),
    Crew retain (trackers.map Member.kind) ∧ effects.journal.Smooth ∧
      Pipeline.open? trackers config store effects = .ok start ∧
      ledger.Whole ∧ ledger.latest = n.latest ∧ start.load ledger = (.ok (), loaded) ∧
      loaded.startWorker = .ok n.pipeline
  room : n.Room
  free : n.hand = .free
  fresh : n.last = none

/-- What may become of a service. -/
def Reachable (retain : UInt64) (n : Service) : Prop :=
  ∃ first, Begins retain first ∧ Relation.ReflTransGen Step first n

/-- Nothing is queued and nothing runs. -/
def Idle (n : Service) : Prop := n.pipeline.queue = [] ∧ n.hand = .free

end Service

/-! ## What holds of the pipeline -/

/-- Settings that a pipeline was opened with let cycles have rounds and tickets be queued. -/
theorem Pipeline.config_pos_of_open {τ : Type} {p : Pipeline τ} {trackers : List τ}
    {config : Config} {store : Store} {effects : Effects}
    (h : open? trackers config store effects = .ok p) :
    0 < config.maxRounds.toNat ∧ 0 < config.queueCapacity.toNat := by
  have hpos : ∀ w : UInt64, w ≠ 0 → 0 < w.toNat :=
    fun w hw => Nat.pos_of_ne_zero fun hzero => hw (UInt64.toNat_inj.mp hzero)
  unfold open? Config.validate at h
  by_cases hrounds : config.maxRounds = 0
  · simp [hrounds] at h
  by_cases hretain : config.tailRetain = 0
  · simp [hrounds, hretain] at h
  by_cases hqueue : config.queueCapacity = 0
  · simp [hrounds, hretain, hqueue] at h
  exact ⟨hpos _ hrounds, hpos _ hqueue⟩

/-- What holds of the pipeline of a service, whatever is in flight. -/
structure Sound (retain : UInt64) (latest : Round) (p : Pipeline Own) : Prop where
  current : p.Current
  loaded : p.loaded
  crew : Crew retain p.kinds
  covers : ∀ t ∈ p.trackers, t.Covers p.durable (latest.toNat + 1)
  reported_le : p.reported ≤ latest
  reported_lt : p.reported.toNat + 1 < Round.limit
  working : p.intake = .working
  capacity_pos : 0 < p.config.queueCapacity.toNat
  maxRounds_pos : 0 < p.config.maxRounds.toNat
  room : min p.config.maxRounds (latest.since p.durable) ≤ Tail.maxStaged
  smooth : p.Smooth

/-- A ticket for everything that is left to be made durable of a reported round behind the lookback
of the tail, as far as one cycle takes it. -/
structure Fits (retain : UInt64) (p : Pipeline Own) (k : Ticket) : Prop where
  base : k.range.base = p.durable
  length : k.range.length.toNat =
    min (k.committed.toNat - retain.toNat - p.durable.toNat) p.config.maxRounds.toNat
  length_ne_zero : k.range.length.toNat ≠ 0
  committed_le : k.committed ≤ p.reported

/-- A reported round is durable up to what the tail retains, or the last cycle was a full one. -/
def CaughtUp (retain : UInt64) (p : Pipeline Own) (last : Option Landing) (round : Round) : Prop :=
  round.back retain ≤ p.durable ∨ ∃ l, last = some l ∧ l.range.length = p.config.maxRounds

section Sound

variable {retain : UInt64} {latest round : Round} {p q : Pipeline Own} {k : Ticket}

namespace Sound

/-- The queue and the mark play no part. -/
theorem withQueue (h : Sound retain latest p) (inFlight : Bool) (queue : List Ticket) :
    Sound retain latest { p with inFlight, queue } :=
  ⟨⟨h.current.durable, h.current.within⟩, h.loaded, h.crew, h.covers, h.reported_le, h.reported_lt,
    h.working, h.capacity_pos, h.maxRounds_pos, h.room, h.smooth⟩

/-- A line that is no failure leaves the rest sound. -/
theorem log {e : Event} (h : Sound retain latest p) (he : e.isFailure = false) :
    Sound retain latest (p.log e) :=
  ⟨h.current.of_steady (steady_log e), h.loaded, h.crew, h.covers, h.reported_le, h.reported_lt,
    h.working, h.capacity_pos, h.maxRounds_pos, h.room, smooth_log h.smooth he⟩

/-- A delivered round that has one after it may be remembered as reported. -/
theorem remember (h : Sound retain latest p) (hknown : round ≤ latest)
    (hlimit : round.toNat + 1 < Round.limit) : Sound retain latest (p.remember round) := by
  have hmax : (p.remember round).reported.toNat = max p.reported.toNat round.toNat :=
    Round.toNat_max _ _
  have hle := Round.le_def.mp h.reported_le
  have hlt := h.reported_lt
  have hknown := Round.le_def.mp hknown
  exact ⟨h.current.of_steady (steady_remember round), h.loaded, h.crew, h.covers,
    Round.le_def.mpr (by omega), by omega, h.working, h.capacity_pos, h.maxRounds_pos, h.room,
    h.smooth⟩

/-- A report that finds the mark set is remembered and nothing else. -/
theorem report_of_busy (h : Sound retain latest p) (hknown : round ≤ latest)
    (hlimit : round.toNat + 1 < Round.limit) (hmark : p.inFlight = true) :
    (p.report round).2 = (p.remember round).log (.alreadyInFlight round) ∧
      Sound retain latest (p.report round).2 := by
  obtain ⟨before, u, after, haround, -⟩ := h.crew.exists_around
  obtain ⟨floor, heq⟩ := Pipeline.report_of_busy haround hlimit hmark
  rw [heq]
  exact ⟨rfl, (h.remember hknown hlimit).log rfl⟩

/-- A report that finds nothing in flight leaves nothing to be done, or a ticket that fits. -/
theorem report_of_free (h : Sound retain latest p) (hknown : round ≤ latest)
    (hlimit : round.toNat + 1 < Round.limit) (hmark : p.inFlight = false) (hqueue : p.queue = []) :
    (∃ floor, (p.report round).1 = .ok floor) ∧ Sound retain latest (p.report round).2 ∧
      ((round.back retain ≤ p.durable ∧ (p.report round).2 = p.remember round) ∨
        ∃ k, (p.report round).2.queue = [k] ∧ (p.report round).2.inFlight = true ∧
          Fits retain (p.report round).2 k) := by
  obtain ⟨before, u, after, haround, rfl⟩ := h.crew.exists_around
  have hsound := h.remember hknown hlimit
  -- The round was delivered, so the tail holds it unless it is durable already.
  have hheld : p.durable < round → (u.entries.get? round).isSome := by
    intro habove
    exact h.covers (.tail u) haround.mem round habove (Nat.lt_succ_of_le hknown)
  have hroom : p.queue.length < p.config.queueCapacity.toNat := by
    rw [hqueue]
    exact h.capacity_pos
  have hpositive := h.maxRounds_pos
  have hlength := toNat_length_propose (p := p) round u.retain
  obtain ⟨floor, ⟨hnone, heq⟩ | ⟨hsome, newBase, heq⟩⟩ :=
    Pipeline.report_of_free haround hlimit hmark h.working hroom hheld <;> rw [heq]
  · refine ⟨⟨floor, rfl⟩, hsound, .inl ⟨?_, rfl⟩⟩
    rw [hnone] at hlength
    have hzero : (0 : UInt64).toNat = 0 := rfl
    rw [Round.le_def, Round.toNat_back]
    omega
  · have hsome : (p.propose round u.retain).length.toNat ≠ 0 :=
      fun hzero => hsome (UInt64.toNat_inj.mp hzero)
    have hreported : round ≤ max p.reported round := by
      rw [Round.le_def, Round.toNat_max]
      exact Nat.le_max_right _ _
    refine ⟨⟨floor, rfl⟩, ?_, .inr ⟨_, congrArg (· ++ _) hqueue, rfl, rfl, hlength, hsome,
      hreported⟩⟩
    exact (hsound.log (e := .scheduled p.durable newBase u.retain) rfl).withQueue _ _

end Sound

/-- A ticket that fits can be prepared and written. -/
theorem Fits.stageable (h : Fits retain p k) (hp : Sound retain latest p) :
    Tail.Stageable k.range := by
  have hretain := hp.crew.retain_pos
  have hlength := h.length
  have hne := h.length_ne_zero
  have hbase : k.range.base.toNat = p.durable.toNat := by rw [h.base]
  have hcommitted := Round.le_def.mp h.committed_le
  have hle := Round.le_def.mp hp.reported_le
  have hlimit := hp.reported_lt
  refine ⟨by omega, ?_⟩
  -- The range is no longer than a cycle, and it ends below the latest round.
  have hroom := UInt64.le_iff_toNat_le.mp hp.room
  rw [Word.toNat_min, Round.toNat_since] at hroom
  refine UInt64.le_iff_toNat_le.mpr (Nat.le_trans ?_ hroom)
  omega

/-- The worker lands a ticket that fits, and the pipeline is as sound as it was. -/
theorem Sound.work (h : Sound retain latest p) (hk : Fits retain p k) :
    ∃ newBase, (p.runWithRetries k).1 = .ok (.landed newBase) ∧
      (Request.work k).landed? p = some ⟨k.range, newBase⟩ ∧
      newBase.toNat = p.durable.toNat + k.range.length.toNat ∧
      Sound retain latest ((Request.work k).run p) ∧
      ∃ trackers store effects, (Request.work k).run p =
        { p with trackers, store, effects, durable := newBase, flushed := true } := by
  have hlength := hk.length
  have hne := hk.length_ne_zero
  have hcommitted := Round.le_def.mp hk.committed_le
  have hreported := Round.le_def.mp h.reported_le
  have hbase : k.range.base.toNat = p.durable.toNat := by rw [hk.base]
  obtain ⟨newBase, q, hwrites⟩ :=
    exists_writes h.crew h.loaded h.covers hk.base (hk.stageable h) (by omega)
  have hnew := Round.plus_eq_ok_iff.mp hwrites.lands
  have hcycle := runCycle_of_writes hwrites
  have hlanded := settles_of_writes hwrites h.current
  have hwork : p.runWithRetries k = q.settleLanded newBase k := by
    rw [← hcycle]
    exact runWithRetries_of_landed (by rw [hcycle]; exact hlanded)
  have hticket := (settleLanded_result (p := q) newBase k).1
  refine ⟨newBase, by rw [hwork, hlanded], ?_, by omega, ?_⟩
  · rw [Request.landed?, hwork]
    rcases hsettle : q.settleLanded newBase k with ⟨result, k', q'⟩
    rw [hsettle] at hlanded hticket
    obtain rfl : result = _ := hlanded
    obtain rfl : k' = _ := hticket
    rfl
  have hrun : (Request.work k).run p =
      (q.settleLanded newBase k).2.2.log (.cycleDone newBase) := by
    simp only [Request.run, hwork, hlanded, summaryEvent]
  have hcurrent := current_settleLanded hwrites h.current
  have hcrew : Crew retain (q.settleLanded newBase k).2.2.kinds := by
    rw [kinds_settleLanded, kinds_of_steady hwrites.steady]
    exact h.crew
  have hcovers := covers_of_writes hwrites h.current h.covers
  have hsmooth := smooth_settleLanded newBase k (hwrites.smooth h.smooth)
  -- Of a cycle that landed it is known what else it may have changed.
  have hend := cycleEnd_runWithRetries k p
  rw [hwork] at hend
  generalize q.settleLanded newBase k = left at hend hlanded hcurrent hcrew hcovers hsmooth hrun
  obtain ⟨result, k', q'⟩ := left
  obtain rfl : result = _ := hlanded
  cases hend with
  | fruitless hresult => exact absurd rfl (hresult newBase)
  | written store newBase' hstored hresult hasked =>
    obtain rfl : newBase = newBase' := by
      rcases hresult with heq | ⟨f, heq⟩
      · simpa using heq
      · cases heq
    obtain ⟨trackers, effects, rfl⟩ := hasked
    have hsince : (latest.since newBase).toNat ≤ (latest.since p.durable).toNat := by
      rw [Round.toNat_since, Round.toNat_since]
      omega
    have hroom : min p.config.maxRounds (latest.since newBase) ≤ Tail.maxStaged := by
      have hroom := UInt64.le_iff_toNat_le.mp h.room
      rw [Word.toNat_min] at hroom
      rw [UInt64.le_iff_toNat_le, Word.toNat_min]
      omega
    have hsound : Sound retain latest
        { p with trackers, store, effects, durable := newBase, flushed := true } :=
      ⟨hcurrent, h.loaded, hcrew, hcovers, h.reported_le, h.reported_lt, h.working, h.capacity_pos,
        h.maxRounds_pos, hroom, hsmooth⟩
    rw [hrun]
    exact ⟨hsound.log rfl, trackers, store, _, rfl⟩

/-- A ticket still fits after higher rounds were reported. -/
theorem Fits.mono (hk : Fits retain p k) (hdurable : q.durable = p.durable)
    (hconfig : q.config = p.config) (hreported : p.reported ≤ q.reported) : Fits retain q k where
  base := hk.base.trans hdurable.symm
  length := by
    rw [hdurable, hconfig]
    exact hk.length
  length_ne_zero := hk.length_ne_zero
  committed_le := Nat.le_trans hk.committed_le hreported

/-- Of two reported rounds the higher one is caught up with if both are. -/
theorem CaughtUp.max {last : Option Landing} {r r' : Round} (h : CaughtUp retain p last r)
    (h' : CaughtUp retain p last r') : CaughtUp retain p last (max r r') := by
  show CaughtUp retain p last (if r ≤ r' then r' else r)
  split
  · exact h'
  · exact h

/-- A cycle that fitted has caught up with the round it was negotiated for. -/
theorem Fits.caughtUp (hk : Fits retain p k)
    {newBase : Round} (hnew : newBase.toNat = p.durable.toNat + k.range.length.toNat)
    (hdurable : q.durable = newBase) (hconfig : q.config = p.config) (last : Option Landing) :
    CaughtUp retain q ((some ⟨k.range, newBase⟩ : Option Landing).or last) k.committed := by
  have hlength := hk.length
  -- The range has all that is left behind the lookback, or as many rounds as a cycle takes.
  rcases Nat.le_total (k.committed.toNat - retain.toNat - p.durable.toNat) p.config.maxRounds.toNat
    with hall | hcut
  · refine .inl ?_
    rw [Round.le_def, Round.toNat_back, hdurable]
    omega
  · refine .inr ⟨_, rfl, ?_⟩
    rw [hconfig, ← UInt64.toNat_inj]
    exact hlength.trans (Nat.min_eq_right hcut)

end Sound

namespace Request

variable {τ : Type} [Tracker τ] {p : Pipeline τ} {handled floor : Round}

/-- The worker that finds a higher round than the one it handled reports it once more. -/
theorem run_complete_of_lt (h : handled < p.reported)
    (hok : ((p.clearMark.log (.followUp handled p.reported)).report p.reported).1 = .ok floor) :
    (complete handled).run p =
      ((p.clearMark.log (.followUp handled p.reported)).report p.reported).2 := by
  have hclear : handled < p.clearMark.reported := h
  show (complete handled).run p =
    ((p.clearMark.log (.followUp handled p.clearMark.reported)).report p.clearMark.reported).2
  have hok : ((p.clearMark.log (.followUp handled p.clearMark.reported)).report
    p.clearMark.reported).1 = .ok floor := hok
  simp only [run, Pipeline.complete, if_pos hclear]
  rcases hreport : (p.clearMark.log (.followUp handled p.clearMark.reported)).report
    p.clearMark.reported with ⟨f | answer, q⟩
  · rw [hreport] at hok
    cases hok
  · rfl

/-- Without a higher round to follow up, the worker gives the mark back. -/
theorem run_complete_of_not_lt (h : ¬handled < p.reported) :
    (complete handled).run p = p.clearMark := by
  have hcomplete : p.complete handled = (.ok (), p.clearMark) := if_neg h
  simp only [run, hcomplete]

end Request

namespace Service

/-! ## Where the mark is -/

/-- The mark of a cycle goes with the ticket: it is set as long as a ticket is in the queue or in
the hand of the worker, and it is clear if there is none. -/
inductive Phase (retain : UInt64) (n : Service) : Prop
  | idle (hhand : n.hand = .free) (hqueue : n.pipeline.queue = [])
      (hmark : n.pipeline.inFlight = false)
      (hcaught : CaughtUp retain n.pipeline n.last n.pipeline.reported)
  | queued (k : Ticket) (hhand : n.hand = .free) (hqueue : n.pipeline.queue = [k])
      (hmark : n.pipeline.inFlight = true) (hfits : Fits retain n.pipeline k)
  | held (k : Ticket) (hhand : n.hand = .holding k) (hqueue : n.pipeline.queue = [])
      (hmark : n.pipeline.inFlight = true) (hfits : Fits retain n.pipeline k)
  | ran (committed : Round) (hhand : n.hand = .ran committed) (hqueue : n.pipeline.queue = [])
      (hmark : n.pipeline.inFlight = true) (hle : committed ≤ n.pipeline.reported)
      (hcaught : CaughtUp retain n.pipeline n.last committed)

/-- What holds of a service at all times. -/
structure Kept (retain : UInt64) (n : Service) : Prop where
  sound : Sound retain n.latest n.pipeline
  phase : n.Phase retain

variable {retain : UInt64} {n n' : Service}

/-- A delivery keeps the invariant, as long as there is room for the block. -/
theorem kept_deliver {block : Block} {delta : Delta} (h : n.Kept retain)
    (hnext : n.latest.next = .ok block.round) (hroom : (n.deliver block delta).Room) :
    (n.deliver block delta).Kept retain := by
  obtain ⟨hsound, hphase⟩ := h
  have hround := Round.next_eq_ok_iff.mp hnext
  have hkinds : (n.pipeline.newBlock block delta).2.kinds = n.pipeline.kinds :=
    kinds_ask (Member.kind_newBlock block delta)
  have hcovers : ∀ t ∈ n.pipeline.trackers, t.Covers n.pipeline.durable block.round.toNat := by
    rw [← hround]
    exact hsound.covers
  have hreported := Round.le_def.mp hsound.reported_le
  refine ⟨?_, ?_⟩
  · exact {
      current := current_newBlock block delta hsound.current
      loaded := hsound.loaded
      crew := hkinds ▸ hsound.crew
      covers := (Pipeline.covers_newBlock delta hcovers).2
      reported_le := by
        show n.pipeline.reported.toNat ≤ block.round.toNat
        omega
      reported_lt := hsound.reported_lt
      working := hsound.working
      capacity_pos := hsound.capacity_pos
      maxRounds_pos := hsound.maxRounds_pos
      room := hroom
      smooth := smooth_newBlock block delta hsound.smooth }
  -- Nothing but trackers was asked, so the mark is where it was.
  · cases hphase with
    | idle hhand hqueue hmark hcaught => exact .idle hhand hqueue hmark hcaught
    | queued k hhand hqueue hmark hfits =>
      exact .queued k hhand hqueue hmark (hfits.mono rfl rfl (Nat.le_refl _))
    | held k hhand hqueue hmark hfits =>
      exact .held k hhand hqueue hmark (hfits.mono rfl rfl (Nat.le_refl _))
    | ran c hhand hqueue hmark hle hcaught => exact .ran c hhand hqueue hmark hle hcaught

/-- So does a report of a round that was delivered. -/
theorem kept_report {round : Round} (h : n.Kept retain) (hknown : round ≤ n.latest)
    (hlimit : round.toNat + 1 < Round.limit) : (n.report round).Kept retain := by
  obtain ⟨hsound, hphase⟩ := h
  have hhigher : n.pipeline.reported ≤ max n.pipeline.reported round := by
    rw [Round.le_def, Round.toNat_max]
    exact Nat.le_max_left _ _
  cases hphase with
  | idle hhand hqueue hmark hcaught =>
    obtain ⟨-, hafter, ⟨hdone, heq⟩ | ⟨k, hqueue', hmark', hfits⟩⟩ :=
      hsound.report_of_free hknown hlimit hmark hqueue
    · refine ⟨hafter, ?_⟩
      have hpipeline : (n.report round).pipeline = n.pipeline.remember round := heq
      have hall : CaughtUp retain n.pipeline n.last (max n.pipeline.reported round) :=
        hcaught.max (.inl hdone)
      refine .idle hhand ?_ ?_ ?_ <;> rw [hpipeline]
      · exact hqueue
      · exact hmark
      · exact hall
    · exact ⟨hafter, .queued k hhand hqueue' hmark' hfits⟩
  -- In all other phases the mark is set, and the report changes none of what these say.
  | queued k hhand hqueue hmark hfits =>
    obtain ⟨heq, hafter⟩ := hsound.report_of_busy hknown hlimit hmark
    refine ⟨hafter, .queued k hhand ?_ ?_ ?_⟩ <;> rw [show (n.report round).pipeline = _ from heq]
    · exact hqueue
    · exact hmark
    · exact hfits.mono rfl rfl hhigher
  | held k hhand hqueue hmark hfits =>
    obtain ⟨heq, hafter⟩ := hsound.report_of_busy hknown hlimit hmark
    refine ⟨hafter, .held k hhand ?_ ?_ ?_⟩ <;> rw [show (n.report round).pipeline = _ from heq]
    · exact hqueue
    · exact hmark
    · exact hfits.mono rfl rfl hhigher
  | ran c hhand hqueue hmark hle hcaught =>
    obtain ⟨heq, hafter⟩ := hsound.report_of_busy hknown hlimit hmark
    refine ⟨hafter, .ran c hhand ?_ ?_ ?_ ?_⟩ <;> rw [show (n.report round).pipeline = _ from heq]
    · exact hqueue
    · exact hmark
    · exact Nat.le_trans hle hhigher
    · exact hcaught

/-- So does the worker when it takes a ticket: what is under way then is in its hand. -/
theorem kept_take {k : Ticket} {p : Pipeline Own} (h : n.Kept retain) (hfree : n.hand = .free)
    (htake : n.pipeline.takeTicket = some (k, p)) :
    Kept retain { n with pipeline := p, hand := .holding k } := by
  obtain ⟨hsound, hphase⟩ := h
  unfold takeTicket at htake
  split at htake
  swap
  · cases htake
  next first rest _ hqueue =>
  cases htake
  refine ⟨hsound.withQueue _ _, ?_⟩
  -- A ticket can only be taken if there is one, and if the worker has none.
  cases hphase with
  | idle _ hempty => rw [hempty] at hqueue; cases hqueue
  | queued k' _ hone hmark hfits =>
    rw [hone] at hqueue
    cases hqueue
    exact .held _ rfl rfl hmark (hfits.mono rfl rfl (Nat.le_refl _))
  | held _ hhand => rw [hhand] at hfree; cases hfree
  | ran _ hhand => rw [hhand] at hfree; cases hfree

/-- The cycle of the worker lands at once, since everything about its ticket fits. -/
theorem kept_work {k : Ticket} (h : n.Kept retain) (hholding : n.hand = .holding k) :
    (∃ newBase, (n.pipeline.runWithRetries k).1 = .ok (.landed newBase)) ∧
      (n.work k).Kept retain := by
  obtain ⟨hsound, hphase⟩ := h
  cases hphase with
  | idle hhand => rw [hhand] at hholding; cases hholding
  | queued _ hhand => rw [hhand] at hholding; cases hholding
  | ran _ hhand => rw [hhand] at hholding; cases hholding
  | held k' hhand hqueue hmark hfits =>
    obtain rfl : k' = k := Hand.holding.inj (hhand.symm.trans hholding)
    obtain ⟨newBase, hok, hlanded, hdurable, hafter, trackers, store, effects, heq⟩ :=
      hsound.work hfits
    refine ⟨⟨newBase, hok⟩, hafter, ?_⟩
    have hpipeline : (n.work k').pipeline = _ := heq
    have hlast : (n.work k').last = (some ⟨k'.range, newBase⟩ : Option Landing).or n.last :=
      congrArg (Option.or · n.last) hlanded
    -- The mark stays set until the worker completes the cycle.
    refine .ran k'.committed rfl ?_ ?_ ?_ ?_ <;> rw [hpipeline]
    · exact hqueue
    · exact hmark
    · exact hfits.committed_le
    · rw [hlast]
      refine hfits.caughtUp hdurable ?_ ?_ n.last
      · rfl
      · rfl

/-- When the worker completes a cycle, a higher round that was reported meanwhile is under way
again. -/
theorem kept_complete {committed : Round} (h : n.Kept retain) (hran : n.hand = .ran committed) :
    (n.complete committed).Kept retain := by
  obtain ⟨hsound, hphase⟩ := h
  cases hphase with
  | idle hhand => rw [hhand] at hran; cases hran
  | queued _ hhand => rw [hhand] at hran; cases hran
  | held _ hhand => rw [hhand] at hran; cases hran
  | ran c hhand hqueue hmark hle hcaught =>
    obtain rfl : c = committed := Hand.ran.inj (hhand.symm.trans hran)
    have hclear : Sound retain n.latest n.pipeline.clearMark := hsound.withQueue false _
    by_cases hmore : c < n.pipeline.reported
    · -- A higher round was reported meanwhile, and nothing stands in its way any more.
      have hlogged := hclear.log (e := .followUp c n.pipeline.reported) rfl
      obtain ⟨⟨floor, hok⟩, hafter, hcases⟩ := hlogged.report_of_free hsound.reported_le
        hsound.reported_lt rfl hqueue
      have hpipeline : (n.complete c).pipeline = _ := Request.run_complete_of_lt hmore hok
      obtain ⟨hdone, heq⟩ | ⟨k, hqueue', hmark', hfits⟩ := hcases
      · refine ⟨hpipeline ▸ hafter, .idle rfl ?_ ?_ ?_⟩ <;> rw [hpipeline, heq]
        · exact hqueue
        · rfl
        · exact CaughtUp.max (.inl hdone) (.inl hdone)
      · refine ⟨hpipeline ▸ hafter, .queued k rfl ?_ ?_ ?_⟩ <;> rw [hpipeline]
        · exact hqueue'
        · exact hmark'
        · exact hfits
    -- Nothing higher was reported, so what the cycle has caught up with is all.
    · have hpipeline : (n.complete c).pipeline = _ := Request.run_complete_of_not_lt hmore
      have hsame : c = n.pipeline.reported := by
        rw [← Round.toNat_inj]
        exact Nat.le_antisymm hle (Nat.le_of_not_lt hmore)
      refine ⟨hpipeline ▸ hclear, .idle rfl ?_ ?_ ?_⟩ <;> rw [hpipeline]
      · exact hqueue
      · rfl
      · exact hsame ▸ hcaught

/-- The invariant holds when a service begins. -/
theorem kept_begins (h : n.Begins retain) : n.Kept retain := by
  obtain ⟨trackers, config, store, effects, start, loaded, ledger, hcrew, hsmooth, hopen, hwhole,
    hlatest, hload, hworker⟩ := h.opened
  have hstart := open?_eq_ok hopen
  have hconfig := config_pos_of_open hopen
  obtain ⟨hcurrent, hloaded, hround⟩ := current_of_load hload
  have hkinds := kinds_load ledger start
  have hquiet : (start.load ledger).2.Smooth := smooth_load ledger (hstart ▸ hsmooth)
  have hcovers := covers_of_load hwhole hload
  rw [hload] at hkinds hquiet
  rw [← hround, ← hcurrent.durable hloaded, hlatest] at hcovers
  -- Of all else the load changed nothing, and nothing has happened yet.
  obtain ⟨_, _, hsame⟩ := (asked_of_load hload).2
  have hidle : loaded.config = config ∧ loaded.reported = .zero ∧ loaded.queue = [] ∧
      loaded.inFlight = false := by
    rw [hsame, hstart]
    exact ⟨rfl, rfl, rfl, rfl⟩
  clear hsame
  obtain ⟨hsettings, hreported, hqueue, hmark⟩ := hidle
  have hpipeline : n.pipeline = { loaded with intake := .working } := by
    unfold startWorker at hworker
    split at hworker
    · exact (Except.ok.inj hworker).symm
    all_goals cases hworker
  have hkind : loaded.kinds = trackers.map Member.kind := by
    rw [show loaded.kinds = start.kinds from hkinds, hstart]
    rfl
  have hzero : Round.zero.toNat + 1 < Round.limit := by decide
  have hroom := h.room
  rw [Room, hpipeline] at hroom
  refine ⟨?_, .idle h.free ?_ ?_ (.inl ?_)⟩
  · rw [hpipeline]
    exact {
      current := ⟨hcurrent.durable, hcurrent.within⟩
      loaded := hloaded
      crew := by
        show Crew retain loaded.kinds
        rw [hkind]
        exact hcrew
      covers := hcovers
      reported_le := by
        show loaded.reported ≤ n.latest
        rw [hreported]
        exact Nat.zero_le _
      reported_lt := by
        show loaded.reported.toNat + 1 < Round.limit
        rw [hreported]
        exact hzero
      working := rfl
      capacity_pos := by
        show 0 < loaded.config.queueCapacity.toNat
        rw [hsettings]
        exact hconfig.2
      maxRounds_pos := by
        show 0 < loaded.config.maxRounds.toNat
        rw [hsettings]
        exact hconfig.1
      room := hroom
      smooth := hquiet }
  · rw [hpipeline]
    exact hqueue
  · rw [hpipeline]
    exact hmark
  · have hnothing : n.pipeline.reported = .zero := by
      rw [hpipeline]
      exact hreported
    rw [Round.le_def, Round.toNat_back, hnothing, Round.toNat_zero, Nat.zero_sub]
    exact Nat.zero_le _

/-- Every step keeps it. -/
theorem kept_step (h : n.Kept retain) (hstep : n.Step n') : n'.Kept retain := by
  cases hstep with
  | deliver hnext hroom => exact kept_deliver h hnext hroom
  | report hknown hlimit => exact kept_report h hknown hlimit
  | take hfree htake => exact kept_take h hfree htake
  | work hholding => exact (kept_work h hholding).2
  | complete hran => exact kept_complete h hran

/-- So it holds wherever steps lead, by induction on them. -/
theorem kept_of_reachable (h : n.Reachable retain) : n.Kept retain := by
  obtain ⟨first, hfirst, hsteps⟩ := h
  induction hsteps with
  | refl => exact kept_begins hfirst
  | tail _ hstep ih => exact kept_step ih hstep

end Service

/-- Let blocks be delivered to a crew and reports come in, in any order and at any time between two
steps of its worker, as long as memory has room for the rows of the next cycle (`Service.Room`).
Whenever nothing is in flight, everything that was reported is durable up to what the tail retains,
or the cycle that landed last was as long as a cycle may be. On the way every cycle that the worker
runs lands, and nothing goes wrong: above all no tracker objects when it is to prepare, and no
ticket is turned away by the queue. -/
theorem report_caught_up {retain : UInt64} {n : Service} (hn : n.Reachable retain) :
    (n.Idle → n.pipeline.reported.back retain ≤ n.pipeline.durable ∨
        ∃ l, n.last = some l ∧ l.range.length = n.pipeline.config.maxRounds) ∧
      (∀ k, n.hand = .holding k →
        ∃ newBase, (n.pipeline.runWithRetries k).1 = .ok (.landed newBase)) ∧
      ∀ e ∈ n.pipeline.effects.journal.events,
        (∀ error, e ≠ .prepareFailed error) ∧ (∀ round refusal, e ≠ .queueRefused round refusal) ∧
          e.isFailure = false := by
  have hkept := Service.kept_of_reachable hn
  refine ⟨?_, fun k hholding => (Service.kept_work hkept hholding).1, fun e he => ?_⟩
  · -- With an empty queue and free hands only the idle phase is left.
    rintro ⟨hempty, hfree⟩
    cases hkept.phase with
    | idle _ _ _ hcaught => exact hcaught
    | queued k _ hqueue => rw [hempty] at hqueue; cases hqueue
    | held k hhand => rw [hfree] at hhand; cases hhand
    | ran c hhand => rw [hfree] at hhand; cases hhand
  · have hsmooth : e.isFailure = false := hkept.sound.smooth e he
    refine ⟨?_, ?_, hsmooth⟩
    · rintro error rfl
      cases hsmooth
    · rintro round refusal rfl
      cases hsmooth

/-- A crew whose tail retains one round, right after a load from a ledger without blocks. -/
def startedService : Service where
  pipeline := { (shortCrew.load emptyLedger).2 with intake := .working }
  latest := .zero
  hand := .free
  last := none

/-- The service once three blocks were delivered and the second one was reported. -/
def askedService : Service :=
  (((startedService.deliver (emptyBlock ⟨1⟩) (.empty ⟨1⟩)).deliver (emptyBlock ⟨2⟩)
    (.empty ⟨2⟩)).deliver (emptyBlock ⟨3⟩) (.empty ⟨3⟩)).report ⟨2⟩

/-- The service with a ticket of one round in the hand of the worker. -/
def Service.holdingOne (n : Service) (base committed : Round) : Service :=
  { n with
    pipeline := { n.pipeline with queue := [] }
    hand := .holding ⟨⟨base, 1, 1⟩, committed, false⟩ }

/-- The service once the worker has completed the cycle of that report, in which the third block was
reported. -/
def followedService : Service :=
  (((askedService.holdingOne .zero ⟨2⟩).report ⟨3⟩).work ⟨⟨.zero, 1, 1⟩, ⟨2⟩, false⟩).complete ⟨2⟩

/-- The service once the cycle that followed is completed as well. -/
def settledService : Service :=
  ((followedService.holdingOne ⟨1⟩ ⟨3⟩).work ⟨⟨⟨1⟩, 1, 1⟩, ⟨3⟩, false⟩).complete ⟨3⟩

/-- A round is reported while the cycle of a lower one runs, and is made durable by the cycle that
follows. -/
theorem report_caught_up_midCycle :
    settledService.Reachable 1 ∧ settledService.Idle ∧ settledService.pipeline.durable = ⟨2⟩ ∧
      (settledService.pipeline.reported.back 1 ≤ settledService.pipeline.durable ∨
        ∃ l, settledService.last = some l ∧
          l.range.length = settledService.pipeline.config.maxRounds) := by
  -- The crew loads from a ledger without blocks, so there is nothing to be replayed.
  have hcrew : Crew 1 (shortCrew.trackers.map Member.kind) :=
    show [Kind.memory, .durable, .tail 1].Perm [.tail 1, .memory, .durable] by decide
  have hwhole : emptyLedger.Whole := by
    intro r hpos hle
    exact absurd hpos (Nat.not_lt.mpr hle)
  have hbegins : startedService.Begins 1 :=
    ⟨⟨_, {}, .empty, {}, shortCrew, _, emptyLedger, hcrew, by simp [Journal.Smooth, Journal.events],
      rfl, hwhole, rfl, Prod.ext rfl rfl, rfl⟩, by decide, rfl, rfl⟩
  have hfirst := @Service.Step.deliver startedService (emptyBlock ⟨1⟩) (.empty ⟨1⟩) rfl (by decide)
  have hsecond := @Service.Step.deliver (startedService.deliver (emptyBlock ⟨1⟩) (.empty ⟨1⟩))
    (emptyBlock ⟨2⟩) (.empty ⟨2⟩) rfl (by decide)
  have hthird := @Service.Step.deliver ((startedService.deliver (emptyBlock ⟨1⟩)
    (.empty ⟨1⟩)).deliver (emptyBlock ⟨2⟩) (.empty ⟨2⟩)) (emptyBlock ⟨3⟩) (.empty ⟨3⟩) rfl
    (by decide)
  have hasked := @Service.Step.report (((startedService.deliver (emptyBlock ⟨1⟩)
    (.empty ⟨1⟩)).deliver (emptyBlock ⟨2⟩) (.empty ⟨2⟩)).deliver (emptyBlock ⟨3⟩) (.empty ⟨3⟩)) ⟨2⟩
    (by decide) (by decide)
  have htaken : askedService.Step (askedService.holdingOne .zero ⟨2⟩) := .take rfl rfl
  have hmissed := @Service.Step.report (askedService.holdingOne .zero ⟨2⟩) ⟨3⟩ (by decide)
    (by decide)
  have hworked := @Service.Step.work ((askedService.holdingOne .zero ⟨2⟩).report ⟨3⟩) _ rfl
  have hfollowed := @Service.Step.complete (((askedService.holdingOne .zero ⟨2⟩).report ⟨3⟩).work
    ⟨⟨.zero, 1, 1⟩, ⟨2⟩, false⟩) _ rfl
  have htaken' : followedService.Step (followedService.holdingOne ⟨1⟩ ⟨3⟩) := .take rfl rfl
  have hworked' := @Service.Step.work (followedService.holdingOne ⟨1⟩ ⟨3⟩) _ rfl
  have hsettled := @Service.Step.complete ((followedService.holdingOne ⟨1⟩ ⟨3⟩).work
    ⟨⟨⟨1⟩, 1, 1⟩, ⟨3⟩, false⟩) _ rfl
  have hreachable : settledService.Reachable 1 :=
    ⟨startedService, hbegins,
      .head hfirst (.head hsecond (.head hthird (.head hasked (.head htaken (.head hmissed
        (.head hworked (.head hfollowed (.head htaken' (.head hworked' (.single hsettled))))))))))⟩
  have hidle : settledService.Idle := ⟨rfl, rfl⟩
  exact ⟨hreachable, hidle, rfl, (report_caught_up hreachable).1 hidle⟩

end CommitPipeline
