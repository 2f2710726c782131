import CommitPipeline.Proofs.CatchingUp
import CommitPipeline.Proofs.Talks

/-!
# Which reports are dropped

A report that finds the mark set is only remembered. The worker looks for remembered rounds when it
has given the mark of a cycle back; nobody else who gives a mark back does. So a report is offered
to the trackers sooner or later, or it was turned away by a mark that was then given back by
somebody who did not look: by a negotiation that came to nothing, by a full queue, or by the holder
of a ticket who ran its cycle.

The module introduces:

* `Scene`, `Scene.Step` — a pipeline with talks under way, a worker and holders of tickets;
* `Offered`, `Dropped`, `CutShort` — the fates of a reported round;
* `Scene.Kept` — what holds at all times: above all who still has to do with the highest round;
* `offered_or_dropped` — the fate of the highest reported round once nothing is under way.
-/

namespace CommitPipeline

open Pipeline

/-- Operations that leave the mark and the reported rounds alone. -/
inductive Operation.Plain : Operation → Prop
  | load (ledger : LedgerView) : Plain (.load ledger)
  | newBlock (block : Block) (delta : Delta) : Plain (.newBlock block delta)
  | startWorker : Plain (.request .startWorker)
  | retire : Plain (.request .retire)
  | close : Plain .close

/-- A pipeline with all that is under way. -/
structure Scene (τ : Type) where
  /-- The pipeline. -/
  pipeline : Pipeline τ
  /-- The negotiations under way. -/
  talks : List Talk
  /-- What the worker has in its hand. -/
  hand : Hand
  /-- What has happened, newest first. -/
  history : List Happening

namespace Scene

variable {τ : Type} [Tracker τ]

/-- The scene once a talk has come to what is given: what is left of it, the pipeline, and what
happened. -/
def replace (n : Scene τ) (before after : List Talk)
    (left : Option Talk × Pipeline τ × List Happening) : Scene τ :=
  { n with
    pipeline := left.2.1
    talks := before ++ left.1.toList ++ after
    history := left.2.2 ++ n.history }

/-- A round is reported. -/
def report (n : Scene τ) (round : Round) : Scene τ :=
  { n with
    pipeline := n.pipeline.remember round
    talks := .reporting round :: n.talks
    history := .recorded round :: n.history }

/-- One of the talks goes one step on. -/
def goOn (n : Scene τ) (before : List Talk) (t : Talk) (after : List Talk) : Scene τ :=
  n.replace before after (t.step n.pipeline)

/-- What the end of a cycle means for the mark, if its holder runs it: a fault leaves it alone. -/
def afterCommit : Except Stop Outcome → List Happening
  | .error (.fault _) => []
  | .error (.error _) | .ok _ => [.handedBack .committed]

/-- What may happen at any time: a round is reported, somebody asks for a ticket, a talk goes one
step on, the worker takes a ticket, runs its cycle and gives the mark back, the holder of any ticket
runs its cycle, and anything else that leaves mark and reports alone. A cycle is one step, as it
looks neither at the mark nor at the reported rounds. -/
inductive Step : Scene τ → Scene τ → Prop
  | report (n : Scene τ) (round : Round) : Step n (n.report round)
  | schedule (n : Scene τ) (committed : Round) (lookback : UInt64) :
      Step n { n with talks := .scheduling committed lookback :: n.talks }
  | goOn {n : Scene τ} {before after : List Talk} {t : Talk}
      (htalks : n.talks = before ++ t :: after) : Step n (n.goOn before t after)
  | take {n : Scene τ} {k : Ticket} {p : Pipeline τ} (hfree : n.hand = .free)
      (htake : n.pipeline.takeTicket = some (k, p)) :
      Step n { n with pipeline := p, hand := .holding k }
  | work {n : Scene τ} {k : Ticket} (hholding : n.hand = .holding k) :
      Step n { n with pipeline := (Request.work k).run n.pipeline, hand := .ran k.committed }
  | release {n : Scene τ} {committed : Round} (hran : n.hand = .ran committed) :
      Step n { n with
        pipeline := n.pipeline.clearMark
        talks := .following committed :: n.talks
        hand := .free
        history := .released :: n.history }
  | commit (n : Scene τ) (k : Ticket) :
      Step n { n with
        pipeline := (n.pipeline.commit k).2.2
        history := afterCommit (n.pipeline.commit k).1 ++ n.history }
  | operate (n : Scene τ) {operation : Operation} (hplain : operation.Plain) :
      Step n { n with pipeline := operation.run n.pipeline }

/-- A scene begins with an opened pipeline, to which nothing was done yet. -/
structure Begins (n : Scene τ) : Prop where
  opened : ∃ trackers config store effects,
    Pipeline.open? trackers config store effects = .ok n.pipeline
  talks : n.talks = []
  free : n.hand = .free
  history : n.history = []

/-- What may become of a scene. -/
def Reachable (n : Scene τ) : Prop := ∃ first, Begins first ∧ Relation.ReflTransGen Step first n

/-- No negotiation is under way, no cycle is queued or runs, and no mark is set. -/
def Idle (n : Scene τ) : Prop :=
  n.talks = [] ∧ n.pipeline.queue = [] ∧ n.hand = .free ∧ n.pipeline.inFlight = false

end Scene

/-! ## The fate of a reported round -/

/-- The mark is given back. -/
def Happening.Frees : Happening → Prop
  | handedBack _ | released => True
  | recorded _ | claimed _ | refused _ | cutShort => False

/-- It has happened after the round was recorded. -/
def HappenedSince (round : Round) (happening : Happening) (history : List Happening) : Prop :=
  ∃ newer older, history = newer ++ happening :: older ∧ .recorded round ∈ older

/-- After the round was recorded, a negotiation set the mark for it. -/
def Offered (round : Round) (history : List Happening) : Prop :=
  HappenedSince round (.claimed round) history

/-- After the round was recorded, a negotiation was cut short. -/
def CutShort (round : Round) (history : List Happening) : Prop :=
  HappenedSince round .cutShort history

/-- A negotiation for the round found the mark set, and it has been so since. -/
def TurnedAway (round : Round) (history : List Happening) : Prop :=
  ∃ newer older, history = newer ++ .refused round :: older ∧ ∀ h ∈ newer, ¬h.Frees

/-- A negotiation for the round found the mark set, and when the mark was given back, nobody looked
for the round. -/
def Dropped (round : Round) (history : List Happening) : Prop :=
  ∃ newer why older, history = newer ++ .handedBack why :: older ∧ TurnedAway round older

section Fates

variable {round : Round} {history : List Happening}

/-- What happens later takes nothing back. -/
theorem HappenedSince.append {happening : Happening} (h : HappenedSince round happening history)
    (new : List Happening) : HappenedSince round happening (new ++ history) := by
  obtain ⟨newer, older, rfl, hrecorded⟩ := h
  exact ⟨new ++ newer, older, (List.append_assoc ..).symm, hrecorded⟩

theorem HappenedSince.mem {happening : Happening} (h : HappenedSince round happening history) :
    happening ∈ history := by
  obtain ⟨newer, older, rfl, -⟩ := h
  exact List.mem_append_right _ List.mem_cons_self

/-- A round that was offered was reported before. -/
theorem Offered.recorded (h : Offered round history) : .recorded round ∈ history := by
  obtain ⟨newer, older, rfl, hrecorded⟩ := h
  exact List.mem_append_right _ (List.mem_cons_of_mem _ hrecorded)

theorem Offered.append (h : Offered round history) (new : List Happening) :
    Offered round (new ++ history) := HappenedSince.append h new

/-- A round that was turned away stays so as long as nobody gives the mark back. -/
theorem TurnedAway.append (h : TurnedAway round history) (new : List Happening)
    (hnew : ∀ h ∈ new, ¬h.Frees) : TurnedAway round (new ++ history) := by
  obtain ⟨newer, older, rfl, hnewer⟩ := h
  exact ⟨new ++ newer, older, (List.append_assoc ..).symm,
    List.forall_mem_append.mpr ⟨hnew, hnewer⟩⟩

/-- The fate of a round is settled by what has happened. -/
inductive Settled (round : Round) (history : List Happening) : Prop
  | offered (h : Offered round history)
  | dropped (h : Dropped round history)
  | cutShort (h : CutShort round history)

/-- What is settled stays settled. -/
theorem Settled.append (h : Settled round history) (new : List Happening) :
    Settled round (new ++ history) := by
  cases h with
  | offered hoffered => exact .offered (hoffered.append new)
  | dropped hdropped =>
    obtain ⟨newer, why, older, rfl, haway⟩ := hdropped
    exact .dropped ⟨new ++ newer, why, older, (List.append_assoc ..).symm, haway⟩
  | cutShort hcut => exact .cutShort (HappenedSince.append hcut new)

end Fates

namespace Scene

variable {τ : Type}

/-- What is known of a talk: a round it is about was recorded, and offered once it has the mark. -/
def Known (history : List Happening) (t : Talk) : Prop :=
  match t.stage with
  | .looking => Offered t.committed history
  | .asking .. | .ready _ => t.purpose ≠ .schedule → .recorded t.committed ∈ history
  | .marked _ | .refining .. => t.purpose ≠ .schedule → Offered t.committed history
  | .sending k => k.committed = t.committed ∧ Offered t.committed history

/-- The round of the cycle that the worker has in its hand. -/
def round? : Hand → Option Round
  | .free => none
  | .holding k => some k.committed
  | .ran committed => some committed

section Known

variable {history : List Happening} {t : Talk}

/-- Before the mark is tried, a report has its round recorded. -/
theorem known_of_early (hstage : t.stage.Early) :
    Known history t ↔ (t.purpose ≠ .schedule → .recorded t.committed ∈ history) := by
  obtain ⟨purpose, committed, stage⟩ := t
  cases stage with
  | asking => exact Iff.rfl
  | ready => exact Iff.rfl
  | looking | marked | refining | sending => exact hstage.elim

/-- A talk that has the mark was offered the round it is about. -/
theorem Known.offered (h : Known history t) (hstage : t.stage.Late t.committed)
    (hpurpose : t.purpose ≠ .schedule) : Offered t.committed history := by
  obtain ⟨purpose, committed, stage⟩ := t
  cases stage with
  | marked => exact h hpurpose
  | refining => exact h hpurpose
  | sending k => exact h.2
  | looking | asking | ready => exact hstage.elim

/-- Under the mark, a report has had its round offered. -/
theorem known_of_late (hstage : t.stage.Late t.committed)
    (hpurpose : ∀ k, t.stage = .sending k → t.purpose ≠ .schedule)
    (hoffered : t.purpose ≠ .schedule → Offered t.committed history) : Known history t := by
  obtain ⟨purpose, committed, stage⟩ := t
  cases stage with
  | marked => exact hoffered
  | refining => exact hoffered
  | sending k => exact ⟨hstage, hoffered (hpurpose k rfl)⟩
  | looking | asking | ready => exact hstage.elim

/-- What a talk rests on is not taken back. -/
theorem Known.append (h : Known history t) (new : List Happening) : Known (new ++ history) t := by
  obtain ⟨purpose, committed, stage⟩ := t
  cases stage with
  | looking => exact Offered.append h new
  | asking =>
    intro hpurpose
    exact List.mem_append_right _ (h hpurpose)
  | ready =>
    intro hpurpose
    exact List.mem_append_right _ (h hpurpose)
  | marked =>
    intro hpurpose
    exact (h hpurpose).append new
  | refining =>
    intro hpurpose
    exact (h hpurpose).append new
  | sending k => exact ⟨h.1, h.2.append new⟩

end Known

/-- Who still has to do with the highest reported round. -/
inductive Account (n : Scene τ) : Prop
  | silent (h : ∀ r, .recorded r ∉ n.history)
  | settled (h : Settled n.pipeline.reported n.history)
  | waiting (hmark : n.pipeline.inFlight = true) (h : TurnedAway n.pipeline.reported n.history)
  | asking {t : Talk} (ht : t ∈ n.talks) (hstage : t.stage.Early)
      (hround : t.committed = n.pipeline.reported)
  | looking {t : Talk} (ht : t ∈ n.talks) (hstage : t.stage = .looking)

/-- What holds of a scene at all times. -/
structure Kept (n : Scene τ) : Prop where
  highest : ∀ r, .recorded r ∈ n.history → r ≤ n.pipeline.reported
  recorded : (n.pipeline.reported = .zero ∧ ∀ r, .recorded r ∉ n.history) ∨
    .recorded n.pipeline.reported ∈ n.history
  talks : ∀ t ∈ n.talks, Known n.history t
  queue : ∀ k ∈ n.pipeline.queue, Offered k.committed n.history
  hand : ∀ r, round? n.hand = some r → Offered r n.history
  account : n.Account

section Keep

variable {n : Scene τ} {before after : List Talk} {t : Talk} {q : Pipeline τ}

/-- What is kept by anything that leaves the highest reported round alone. -/
theorem Kept.step {talks : List Talk} {hand : Hand} (h : n.Kept) (new : List Happening)
    (hreported : q.reported = n.pipeline.reported)
    (hnew : ∀ r, .recorded r ∈ new → r = n.pipeline.reported)
    (htalks : ∀ t ∈ talks, t ∈ n.talks ∨ Known (new ++ n.history) t)
    (hqueue : ∀ k ∈ q.queue, k ∈ n.pipeline.queue ∨ Offered k.committed (new ++ n.history))
    (hhand : ∀ r, round? hand = some r → Offered r n.history)
    (haccount : Account ⟨q, talks, hand, new ++ n.history⟩) :
    Kept ⟨q, talks, hand, new ++ n.history⟩ where
  highest r hr := by
    show r ≤ q.reported
    rw [hreported]
    rcases List.mem_append.mp hr with hr | hr
    · exact hnew r hr ▸ Nat.le_refl _
    · exact h.highest r hr
  -- Of what is new only the highest round itself may have been recorded.
  recorded := by
    show (q.reported = .zero ∧ _) ∨ _
    rw [hreported]
    rcases h.recorded with ⟨hzero, hsilent⟩ | hrecorded
    · by_cases hany : ∃ r, Happening.recorded r ∈ new
      · obtain ⟨r, hr⟩ := hany
        exact .inr (List.mem_append_left _ (hnew r hr ▸ hr))
      · refine .inl ⟨hzero, ?_⟩
        intro r hr
        rcases List.mem_append.mp hr with hr | hr
        · exact hany ⟨r, hr⟩
        · exact hsilent r hr
    · exact .inr (List.mem_append_right _ hrecorded)
  talks u hu := by
    rcases htalks u hu with hold | hknown
    · exact (h.talks u hold).append new
    · exact hknown
  queue k hk := by
    rcases hqueue k hk with hold | hoffered
    · exact (h.queue k hold).append new
    · exact hoffered
  hand r hr := (hhand r hr).append new
  account := haccount

/-- The account is what it was if the mark is, and no talk has gone. -/
theorem Account.unmoved {talks : List Talk} {hand : Hand} (h : n.Account)
    (hq : n.pipeline.Unmoved q) (htalks : n.talks ⊆ talks) :
    Account ⟨q, talks, hand, n.history⟩ := by
  cases h with
  | silent hsilent => exact .silent hsilent
  | settled hsettled => exact .settled (hq.reported ▸ hsettled)
  | waiting hmark haway => exact .waiting (hq.inFlight.trans hmark) (hq.reported ▸ haway)
  | asking ht hstage hround => exact .asking (htalks ht) hstage (hround.trans hq.reported.symm)
  | looking ht hstage => exact .looking (htalks ht) hstage

/-- What is kept by anything that leaves the mark and the reported rounds alone. -/
theorem Kept.unmoved {hand : Hand} (h : n.Kept) (hq : n.pipeline.Unmoved q)
    (hhand : ∀ r, round? hand = some r → Offered r n.history) :
    Kept { n with pipeline := q, hand } := by
  refine h.step [] hq.reported ?_ (fun t ht => .inl ht) (fun k hk => .inl (hq.queue hk))
    hhand (h.account.unmoved hq (List.Subset.refl _))
  simp

/-- When somebody gives the mark back who does not look for a higher round, a round that waited for
that is dropped. -/
theorem Account.handedBack {left : List Talk} {hand : Hand} (h : n.Account) (why : Exit)
    (hreported : q.reported = n.pipeline.reported)
    (hleft : ∀ t ∈ n.talks, t.stage.Early ∨ t.stage = .looking → t ∈ left) :
    Account ⟨q, left, hand, .handedBack why :: n.history⟩ := by
  cases h with
  | silent hsilent =>
    apply Account.silent
    intro r hr
    rcases List.mem_cons.mp hr with hr | hr
    · cases hr
    · exact hsilent r hr
  | settled hsettled => exact .settled (hreported ▸ hsettled.append [.handedBack why])
  -- Here a round is lost: its negotiation is over, and nobody else knows of it.
  | waiting _ haway =>
    exact .settled (.dropped ⟨[], why, n.history, rfl, hreported ▸ haway⟩)
  | asking ht hstage hround =>
    exact .asking (hleft _ ht (.inl hstage)) hstage (hround.trans hreported.symm)
  | looking ht hstage => exact .looking (hleft _ ht (.inr hstage)) hstage

/-- The other talks stay when one of them has gone a step on. -/
theorem mem_others (htalks : n.talks = before ++ t :: after) (left : Option Talk) {u : Talk}
    (hu : u ∈ n.talks) : u = t ∨ u ∈ before ++ left.toList ++ after := by
  rw [htalks] at hu
  simp only [List.mem_append, List.mem_cons] at hu ⊢
  tauto

/-- The account after one of the talks has gone a step on without recording anything, given what
becomes of the account if it was about that talk or the mark. -/
theorem Account.replaced {left : Option Talk} {new : List Happening} (h : n.Account)
    (htalks : n.talks = before ++ t :: after) (hreported : q.reported = n.pipeline.reported)
    (hnew : ∀ r, .recorded r ∉ new)
    (hwaiting : n.pipeline.inFlight = true → TurnedAway n.pipeline.reported n.history →
      (n.replace before after (left, q, new)).Account)
    (hasking : t.stage.Early → t.committed = n.pipeline.reported →
      (n.replace before after (left, q, new)).Account)
    (hlooking : t.stage = .looking → (n.replace before after (left, q, new)).Account) :
    (n.replace before after (left, q, new)).Account := by
  cases h with
  | silent hsilent =>
    apply Account.silent
    intro r hr
    rcases List.mem_append.mp hr with hr | hr
    · exact hnew r hr
    · exact hsilent r hr
  | settled hsettled => exact .settled (hreported ▸ hsettled.append new)
  | waiting hmark haway => exact hwaiting hmark haway
  -- It may have been the talk that has gone on which the account was about.
  | @asking u hu hstage hround =>
    rcases mem_others htalks left hu with rfl | hu
    · exact hasking hstage hround
    · exact .asking hu hstage (hround.trans hreported.symm)
  | @looking u hu hstage =>
    rcases mem_others htalks left hu with rfl | hu
    · exact hlooking hstage
    · exact .looking hu hstage

/-- The account when a talk that has the mark goes a step on and keeps the mark. -/
theorem Account.keptMark {left : Option Talk} (h : n.Account)
    (htalks : n.talks = before ++ t :: after) (hreported : q.reported = n.pipeline.reported)
    (hmark : q.inFlight = n.pipeline.inFlight) (hearly : ¬t.stage.Early)
    (hlooking : t.stage ≠ .looking) : (n.replace before after (left, q, [])).Account := by
  refine h.replaced htalks hreported (by simp) ?_ ?_ ?_
  · intro hset haway
    exact .waiting (hmark.trans hset) (hreported ▸ haway)
  · intro h
    exact absurd h hearly
  · intro h
    exact absurd h hlooking

/-- What is kept when one of the talks has gone a step on. -/
theorem Kept.replaced {left : Option Talk} {new : List Happening} (h : n.Kept)
    (htalks : n.talks = before ++ t :: after) (hreported : q.reported = n.pipeline.reported)
    (hnew : ∀ r, .recorded r ∈ new → r = n.pipeline.reported)
    (hleft : ∀ u, left = some u → Known (new ++ n.history) u)
    (hqueue : ∀ k ∈ q.queue, k ∈ n.pipeline.queue ∨ Offered k.committed (new ++ n.history))
    (haccount : (n.replace before after (left, q, new)).Account) :
    (n.replace before after (left, q, new)).Kept := by
  refine h.step new hreported hnew ?_ hqueue h.hand haccount
  intro u hu
  simp only [List.mem_append, Option.mem_toList] at hu
  rw [htalks]
  rcases hu with (hu | hu) | hu
  · exact .inl (List.mem_append_left _ hu)
  · exact .inr (hleft u hu)
  · exact .inl (List.mem_append_right _ (List.mem_cons_of_mem _ hu))

end Keep

/-! ## What every step keeps -/

section Steps

variable {n n' : Scene τ} {before after : List Talk} {t : Talk}

/-- A reported round is the highest from now on, or it is not higher than one that was recorded
before. -/
theorem Kept.max_cases (h : n.Kept) (round : Round) :
    max n.pipeline.reported round = round ∨
      max n.pipeline.reported round = n.pipeline.reported ∧
        .recorded n.pipeline.reported ∈ n.history := by
  rcases Nat.lt_or_ge round.toNat n.pipeline.reported.toNat with hlt | hle
  · refine .inr ⟨if_neg (Nat.not_le.mpr hlt), ?_⟩
    -- No round is below the one that a pipeline begins with.
    rcases h.recorded with ⟨hzero, -⟩ | hrecorded
    · rw [hzero] at hlt
      exact absurd hlt (Nat.not_lt_zero _)
    · exact hrecorded
  · exact .inl (if_pos hle)

/-- A report makes its own negotiation answer for the highest round, or leaves that with those who
had to do with it before. -/
theorem Kept.account_report (h : n.Kept) (round : Round) : (n.report round).Account := by
  rcases h.max_cases round with hnew | ⟨hsame, hrecorded⟩
  · exact .asking List.mem_cons_self (t := .reporting round) trivial hnew.symm
  have hsame : (n.report round).pipeline.reported = n.pipeline.reported := hsame
  cases h.account with
  | silent hsilent => exact absurd hrecorded (hsilent _)
  | settled hsettled => exact .settled (hsame ▸ hsettled.append [.recorded round])
  | waiting hmark haway =>
    have haway := haway.append [.recorded round] (by simp [Happening.Frees])
    exact .waiting hmark (hsame ▸ haway)
  | asking ht hstage hround =>
    exact .asking (List.mem_cons_of_mem _ ht) hstage (hround.trans hsame.symm)
  | looking ht hstage => exact .looking (List.mem_cons_of_mem _ ht) hstage

/-- A report that begins records its round. -/
theorem kept_report (h : n.Kept) (round : Round) : (n.report round).Kept where
  highest r hr := by
    show r.toNat ≤ (max n.pipeline.reported round).toNat
    rw [Round.toNat_max]
    rcases List.mem_cons.mp hr with heq | hr
    · rw [Happening.recorded.inj heq]
      exact Nat.le_max_right _ _
    · exact Nat.le_trans (h.highest r hr) (Nat.le_max_left _ _)
  recorded := by
    apply Or.inr
    show .recorded (max n.pipeline.reported round) ∈ .recorded round :: n.history
    -- The highest round is the one of this report, or it was recorded before.
    rcases h.max_cases round with hnew | ⟨hsame, hrecorded⟩
    · rw [hnew]
      exact List.mem_cons_self
    · rw [hsame]
      exact List.mem_cons_of_mem _ hrecorded
  talks u hu := by
    rcases List.mem_cons.mp hu with rfl | hu
    · intro _
      exact List.mem_cons_self
    · exact (h.talks u hu).append [.recorded round]
  queue k hk := (h.queue k hk).append [.recorded round]
  hand r hr := (h.hand r hr).append [.recorded round]
  account := h.account_report round

/-- A negotiation of a caller records nothing. -/
theorem kept_schedule (h : n.Kept) (committed : Round) (lookback : UInt64) :
    Kept { n with talks := .scheduling committed lookback :: n.talks } := by
  refine h.step [] rfl (by simp) ?_ (fun k hk => .inl hk) h.hand
    (h.account.unmoved (Asked.refl _).unmoved (List.subset_cons_self _ _))
  intro u hu
  rcases List.mem_cons.mp hu with rfl | hu
  · exact .inr fun hpurpose => absurd rfl hpurpose
  · exact .inl hu

/-- The worker may take a ticket whatever talks are under way. -/
theorem kept_take {k : Ticket} {p : Pipeline τ} (h : n.Kept)
    (htake : n.pipeline.takeTicket = some (k, p)) :
    Kept { n with pipeline := p, hand := .holding k } := by
  unfold takeTicket at htake
  split at htake
  swap
  · cases htake
  next first rest _ hqueue =>
  cases htake
  refine h.unmoved ⟨rfl, rfl, ?_⟩ ?_
  · rw [hqueue]
    exact List.subset_cons_self _ _
  · rintro _ ⟨⟩
    exact h.queue k (hqueue ▸ List.mem_cons_self)

/-- The worker gives the mark back and then looks for a higher round. -/
theorem kept_release {committed : Round} (h : n.Kept) (hran : n.hand = .ran committed) :
    Kept { n with
      pipeline := n.pipeline.clearMark
      talks := .following committed :: n.talks
      hand := .free
      history := .released :: n.history } := by
  have hoffered : Offered committed n.history := h.hand committed (by rw [hran]; rfl)
  refine h.step (q := n.pipeline.clearMark) [.released] rfl (by simp) ?_
    (fun k hk => .inl hk) ?_ ?_
  · intro u hu
    rcases List.mem_cons.mp hu with rfl | hu
    · exact .inr (hoffered.append [.released])
    · exact .inl hu
  · rintro _ ⟨⟩
  -- Whatever was reported while the cycle ran, the worker is going to see.
  · exact .looking (t := .following committed) List.mem_cons_self rfl

/-- What is kept when the mark is given back by somebody who does not look for a higher round. -/
theorem kept_handedBack {q : Pipeline τ} (h : n.Kept) (why : Exit) (hq : n.pipeline.Unmoved q) :
    Kept { n with pipeline := q.clearMark, history := .handedBack why :: n.history } :=
  h.step (q := q.clearMark) [.handedBack why] hq.reported (by simp) (fun _ ht => .inl ht)
    (fun _ hk => .inl (hq.queue hk)) h.hand
    (h.account.handedBack why hq.reported fun _ ht _ => ht)

/-- The invariant holds when nothing has happened yet. -/
theorem kept_begins (h : n.Begins) : n.Kept := by
  obtain ⟨trackers, config, store, effects, hopen⟩ := h.opened
  have hstart := open?_eq_ok hopen
  have hsilent : ∀ r, .recorded r ∉ n.history := by simp [h.history]
  refine ⟨fun r hr => absurd hr (hsilent r), .inl ⟨by rw [hstart], hsilent⟩, ?_, ?_, ?_,
    .silent hsilent⟩
  · simp [h.talks]
  · simp [hstart]
  · simp [h.free, round?]

section Talking

variable {q : Pipeline τ}

/-- A talk without the mark asks on. -/
theorem kept_asks {stage : Stage} (h : n.Kept) (htalks : n.talks = before ++ t :: after)
    (hknown : Known n.history t) (hstage : t.stage.Early) (hnext : stage.Early)
    (hq : n.pipeline.Unmoved q) :
    (n.replace before after (some (t.moved stage), q, [])).Kept := by
  refine h.replaced htalks hq.reported (by simp) ?_ (fun k hk => .inl (hq.queue hk)) ?_
  · rintro _ ⟨⟩
    exact (known_of_early hnext).mpr ((known_of_early hstage).mp hknown)
  · refine h.account.replaced htalks hq.reported (by simp) ?_ ?_ ?_
    · intro hmark haway
      exact .waiting (hq.inFlight.trans hmark) (hq.reported ▸ haway)
    · intro _ hround
      exact .asking (t := t.moved stage) (by simp [replace]) hnext
        (hround.trans hq.reported.symm)
    · intro hlooking
      exact absurd hlooking hstage.ne_looking

/-- The worker that finds a higher round reports it once more. -/
theorem kept_looks {need : Need} (h : n.Kept) (htalks : n.talks = before ++ t :: after)
    (hq : n.pipeline.Unmoved q) :
    (n.replace before after (some { t with
      committed := n.pipeline.reported, stage := .asking 0 need }, q,
        [.recorded n.pipeline.reported])).Kept := by
  refine h.replaced htalks hq.reported (by simp) ?_ (fun k hk => .inl (hq.queue hk)) ?_
  · rintro _ ⟨⟩ _
    exact List.mem_cons_self
  · exact .asking (t := { t with committed := n.pipeline.reported, stage := .asking 0 need })
      (by simp [replace]) trivial hq.reported.symm

/-- If the worker finds no higher round, the one it has handled is the highest, and it was
offered. -/
theorem kept_looked (h : n.Kept) (htalks : n.talks = before ++ t :: after)
    (hknown : Known n.history t) (hstage : t.stage = .looking)
    (hdone : ¬t.committed < n.pipeline.reported) :
    (n.replace before after (none, n.pipeline, [])).Kept := by
  have hoffered : Offered t.committed n.history := by
    obtain ⟨purpose, committed, stage⟩ := t
    obtain rfl : stage = .looking := hstage
    exact hknown
  have hle := Round.le_def.mp (h.highest _ hoffered.recorded)
  have hsame : t.committed = n.pipeline.reported := by
    rw [← Round.toNat_inj]
    exact Nat.le_antisymm hle (Nat.le_of_not_lt hdone)
  refine h.replaced htalks rfl (by simp) (by simp) (fun k hk => .inl hk) ?_
  exact .settled (.offered (hsame ▸ hoffered))

/-- A talk is turned away by the mark. -/
theorem kept_refused (h : n.Kept) (htalks : n.talks = before ++ t :: after)
    (hstage : t.stage.Early) (hmark : n.pipeline.inFlight = true) (hq : n.pipeline.Unmoved q) :
    (n.replace before after (none, q, [.refused t.committed])).Kept := by
  have hset : q.inFlight = true := hq.inFlight.trans hmark
  refine h.replaced htalks hq.reported (by simp) (by simp) (fun k hk => .inl (hq.queue hk)) ?_
  refine h.account.replaced htalks hq.reported (by simp) ?_ ?_ ?_
  · intro _ haway
    exact .waiting hset
      (hq.reported ▸ haway.append [.refused t.committed] (by simp [Happening.Frees]))
  -- From now on the highest round depends on who gives the mark back.
  · intro _ hround
    refine .waiting hset ⟨[], n.history, ?_, by simp⟩
    rw [show t.committed = q.reported from hround.trans hq.reported.symm]
    rfl
  · intro hlooking
    exact absurd hlooking hstage.ne_looking

/-- A talk sets the mark, and thereby the round it is about is offered. -/
theorem kept_claimed (h : n.Kept) (htalks : n.talks = before ++ t :: after)
    (hknown : Known n.history t) (hstage : t.stage.Early) (hmark : n.pipeline.inFlight = false)
    (lookback : UInt64) :
    (n.replace before after (some (t.moved (.marked lookback)),
      { n.pipeline with inFlight := true }, [.claimed t.committed])).Kept := by
  have hoffered : .recorded t.committed ∈ n.history →
      Offered t.committed (.claimed t.committed :: n.history) :=
    fun hrecorded => ⟨[], n.history, rfl, hrecorded⟩
  refine h.replaced htalks rfl (by simp) ?_ (fun k hk => .inl hk) ?_
  · rintro _ ⟨⟩ hpurpose
    exact hoffered ((known_of_early hstage).mp hknown hpurpose)
  -- Nobody was waiting for the mark to be given back, as it was not set.
  · refine h.account.replaced htalks rfl (by simp) ?_ ?_ ?_
    · intro hset
      exact absurd (hmark.symm.trans hset) (by simp)
    · intro _ hround
      rcases h.recorded with ⟨-, hsilent⟩ | hrecorded
      · exact .silent (by simpa [replace] using hsilent)
      · rw [← hround] at hrecorded
        exact .settled (.offered (hround ▸ hoffered hrecorded))
    · intro hlooking
      exact absurd hlooking hstage.ne_looking

/-- The ticket of a talk goes into the queue. -/
theorem kept_sends {k : Ticket} (h : n.Kept) (htalks : n.talks = before ++ t :: after)
    (hknown : Known n.history t) (hstage : t.stage = .sending k) :
    (n.replace before after (none, { n.pipeline with queue := n.pipeline.queue ++ [k] },
      [])).Kept := by
  obtain ⟨purpose, committed, stage⟩ := t
  obtain rfl : stage = .sending k := hstage
  obtain ⟨hcommitted, hoffered⟩ := hknown
  refine h.replaced htalks rfl (by simp) (by simp) ?_
    (h.account.keptMark htalks rfl rfl id (by simp))
  intro k' hk'
  rcases List.mem_append.mp hk' with hold | hnew
  · exact .inl hold
  · obtain rfl := List.mem_singleton.mp hnew
    exact .inr (hcommitted ▸ hoffered)

/-- A talk gives the mark back. -/
theorem kept_handsBack (h : n.Kept) (htalks : n.talks = before ++ t :: after) (why : Exit)
    (hearly : ¬t.stage.Early) (hlooking : t.stage ≠ .looking) (hq : n.pipeline.Unmoved q) :
    (n.replace before after (none, q.clearMark, [.handedBack why])).Kept := by
  refine h.replaced htalks hq.reported (by simp) (by simp) (fun k hk => .inl (hq.queue hk)) ?_
  refine h.account.handedBack why hq.reported ?_
  intro u hu hstage
  refine (mem_others htalks none hu).resolve_left ?_
  rintro rfl
  exact hstage.elim hearly hlooking

end Talking

variable [Tracker τ]

/-- A talk that goes one step on keeps what is to be kept. -/
theorem kept_goOn (h : n.Kept) (htalks : n.talks = before ++ t :: after) :
    (n.goOn before t after).Kept := by
  have hknown : Known n.history t := h.talks t (by simp [htalks])
  have hcases := t.step_cases n.pipeline
  unfold goOn
  generalize t.step n.pipeline = stepped at hcases
  cases hcases with
  | asks hstage hnext hq => exact kept_asks h htalks hknown hstage hnext hq
  | looks _ _ hq => exact kept_looks h htalks hq
  | looked hstage hdone => exact kept_looked h htalks hknown hstage hdone
  | refused hstage hmark hq => exact kept_refused h htalks hstage hmark hq
  | claimed hstage hmark => exact kept_claimed h htalks hknown hstage hmark _
  | refines hstage hnext hpurpose hq =>
    refine h.replaced htalks hq.reported (by simp) ?_ (fun k hk => .inl (hq.queue hk))
      (h.account.keptMark htalks hq.reported hq.inFlight hstage.not_early hstage.ne_looking)
    rintro _ ⟨⟩
    exact known_of_late hnext hpurpose (hknown.offered hstage)
  | takesAway hstage _ hq =>
    exact h.replaced htalks hq.reported (by simp) (by simp) (fun k hk => .inl (hq.queue hk))
      (h.account.keptMark htalks hq.reported hq.inFlight hstage.not_early hstage.ne_looking)
  | sends hstage => exact kept_sends h htalks hknown hstage
  | handsBack hearly hlooking hq => exact kept_handsBack h htalks _ hearly hlooking hq
  | cutShort hq =>
    refine h.replaced htalks hq.reported (by simp) (by simp) (fun k hk => .inl (hq.queue hk)) ?_
    -- A talk that is cut short may leave the mark set, or a round without its negotiation.
    rcases h.recorded with ⟨-, hsilent⟩ | hrecorded
    · exact .silent (by simpa [replace] using hsilent)
    · rw [← hq.reported] at hrecorded
      exact .settled (.cutShort ⟨[], n.history, rfl, hrecorded⟩)

/-- The cycle of the worker leaves mark and reports alone. -/
theorem kept_work {k : Ticket} (h : n.Kept) (hholding : n.hand = .holding k) :
    Kept { n with pipeline := (Request.work k).run n.pipeline, hand := .ran k.committed } := by
  refine h.unmoved ((cycleEnd_runWithRetries k n.pipeline).unmoved.trans (asked_log _).unmoved) ?_
  rintro _ ⟨⟩
  exact h.hand k.committed (by rw [hholding]; rfl)

/-- A caller that runs a cycle gives the mark back without looking for a higher round. -/
theorem kept_commit (h : n.Kept) (k : Ticket) :
    Kept { n with
      pipeline := (n.pipeline.commit k).2.2
      history := afterCommit (n.pipeline.commit k).1 ++ n.history } := by
  have hend := (cycleEnd_runCycle k n.pipeline).unmoved
  unfold Pipeline.commit
  rcases hcycle : n.pipeline.runCycle k with ⟨(e | f) | outcome, k', q⟩ <;> rw [hcycle] at hend
  -- Whatever the cycle has come to, its holder does not look for a higher round.
  · exact kept_handedBack h .committed hend
  · exact h.unmoved hend h.hand
  · exact kept_handedBack h .committed hend

/-- Anything else leaves the mark and the reported rounds alone. -/
theorem unmoved_plain {operation : Operation} (hplain : operation.Plain) (p : Pipeline τ) :
    p.Unmoved (operation.run p) := by
  cases hplain with
  | load ledger =>
    -- A load asks, reports, and at its end takes over the stored round.
    refine load_preserves (I := p.Unmoved) (Asked.refl p).unmoved (asked_ask _).unmoved ?_ ?_ ?_
    · intro _ _ h
      exact h.trans (asked_log _).unmoved
    · intro _ block delta h
      exact h.trans (asked_newBlock block delta).unmoved
    · intro _ _ h
      exact ⟨h.inFlight, h.reported, h.queue⟩
  | newBlock block delta => exact (asked_newBlock block delta).unmoved
  | startWorker =>
    simp only [Operation.run, Request.run]
    split
    · next q hstarted =>
      unfold startWorker at hstarted
      split at hstarted <;> cases hstarted
      exact ⟨rfl, rfl, List.Subset.refl _⟩
    · exact (Asked.refl p).unmoved
  | retire => exact ⟨rfl, rfl, List.nil_subset _⟩
  | close => exact (asked_close p).unmoved

/-- Every step keeps the invariant. -/
theorem kept_step (h : n.Kept) (hstep : n.Step n') : n'.Kept := by
  cases hstep with
  | report round => exact kept_report h round
  | schedule committed lookback => exact kept_schedule h committed lookback
  | goOn htalks => exact kept_goOn h htalks
  | take _ htake => exact kept_take h htake
  | work hholding => exact kept_work h hholding
  | release hran => exact kept_release h hran
  | commit k => exact kept_commit h k
  | operate hplain => exact h.unmoved (unmoved_plain hplain n.pipeline) h.hand

/-- So it holds wherever steps lead, by induction on them. -/
theorem kept_of_reachable (h : n.Reachable) : n.Kept := by
  obtain ⟨first, hfirst, hsteps⟩ := h
  -- By induction on the steps that were taken.
  induction hsteps with
  | refl => exact kept_begins hfirst
  | tail _ hstep ih => exact kept_step ih hstep

end Steps

end Scene

/-- Let negotiations be interrupted between any two questions, by reports and by anything else that
may be done to a pipeline. Once nothing is under way any more, the highest round that was reported
is still remembered. Either a negotiation has set the mark for it after it was reported; or a
negotiation for it was turned away, and the mark that stood in its way was given back by somebody
who did not look for a higher round; or a negotiation was cut short after it was reported. -/
theorem offered_or_dropped {τ : Type} [Tracker τ] {n : Scene τ} (hn : n.Reachable) (hidle : n.Idle)
    {round : Round} (hrecorded : .recorded round ∈ n.history)
    (hhighest : ∀ r, .recorded r ∈ n.history → r ≤ round) :
    n.pipeline.reported = round ∧
      (Offered round n.history ∨ Dropped round n.history ∨ CutShort round n.history) := by
  have hkept := Scene.kept_of_reachable hn
  obtain ⟨htalks, -, -, hmark⟩ := hidle
  have hreported : n.pipeline.reported = round := by
    rcases hkept.recorded with ⟨-, hsilent⟩ | hmem
    · exact absurd hrecorded (hsilent round)
    · have hle := Round.le_def.mp (hhighest _ hmem)
      have hge := Round.le_def.mp (hkept.highest _ hrecorded)
      rw [← Round.toNat_inj]
      exact Nat.le_antisymm hle hge
  refine ⟨hreported, ?_⟩
  -- Nobody is left who may still have to do with the round, so its fate is settled.
  cases hkept.account with
  | silent hsilent => exact absurd hrecorded (hsilent round)
  | settled hsettled =>
    rw [hreported] at hsettled
    cases hsettled with
    | offered h => exact .inl h
    | dropped h => exact .inr (.inl h)
    | cutShort h => exact .inr (.inr h)
  | waiting hset => rw [hmark] at hset; cases hset
  | asking ht => rw [htalks] at ht; cases ht
  | looking ht => rw [htalks] at ht; cases ht

/-- The talk at a place goes one step on, if there is one. -/
def Scene.nudge {τ : Type} [Tracker τ] (n : Scene τ) (place : Nat) : Scene τ :=
  match n.talks[place]? with
  | none => n
  | some t => n.goOn (n.talks.take place) t (n.talks.drop (place + 1))

/-- The talks at the given places go on, one step each time. -/
def Scene.nudgeAll {τ : Type} [Tracker τ] (n : Scene τ) (places : List Nat) : Scene τ :=
  places.foldl nudge n

theorem Scene.steps_nudgeAll {τ : Type} [Tracker τ] (n : Scene τ) (places : List Nat) :
    Relation.ReflTransGen Step n (n.nudgeAll places) := by
  have hnudge : ∀ (n : Scene τ) place, Relation.ReflTransGen Step n (n.nudge place) := by
    intro n place
    unfold nudge
    split
    · exact .refl
    · next t hsome =>
      obtain ⟨hlt, hget⟩ := List.getElem?_eq_some_iff.mp hsome
      refine .single (.goOn ?_)
      rw [← hget, List.getElem_cons_drop, List.take_append_drop]
  induction places generalizing n with
  | nil => exact .refl
  | cons place places ih => exact (hnudge n place).trans (ih (n.nudge place))

/-- A pipeline over two trackers of which the second one refuses any range. -/
def contested : Scene (Member Scripted) where
  pipeline :=
    { trackers := [.guest ⟨"willing", {}⟩, .guest ⟨"unwilling", { veto := true }⟩]
      config := {}
      store := .empty }
  talks := []
  hand := .free
  history := []

/-- Round 5 is reported, and its negotiation comes so far that only the second tracker has still to
be asked to refine the range. -/
def halfway : Scene (Member Scripted) := (contested.report ⟨5⟩).nudgeAll [0, 0, 0, 0, 0, 0]

/-- Then round 10 is reported, and turned away by the mark; and the second tracker refuses. -/
def refusedBoth : Scene (Member Scripted) := (halfway.report ⟨10⟩).nudgeAll [0, 0, 0, 0, 0]

/-- A round that is reported between two questions of a negotiation is dropped if that negotiation
is refused. -/
theorem offered_or_dropped_refused :
    refusedBoth.Reachable ∧ refusedBoth.Idle ∧
      refusedBoth.history = [.handedBack .vetoed, .refused ⟨10⟩, .recorded ⟨10⟩, .claimed ⟨5⟩,
        .recorded ⟨5⟩] ∧
      refusedBoth.pipeline.reported = ⟨10⟩ ∧ ¬Offered ⟨10⟩ refusedBoth.history ∧
      Dropped ⟨10⟩ refusedBoth.history := by
  have hbegins : contested.Begins := ⟨⟨_, {}, .empty, {}, rfl⟩, rfl, rfl, rfl⟩
  have hreachable : refusedBoth.Reachable :=
    ⟨contested, hbegins, (Scene.steps_nudgeAll (contested.report ⟨5⟩) _).head (.report _ _)
      |>.trans ((Scene.steps_nudgeAll (halfway.report ⟨10⟩) _).head (.report _ _))⟩
  have hidle : refusedBoth.Idle := ⟨rfl, rfl, rfl, rfl⟩
  have hhistory : refusedBoth.history = [.handedBack .vetoed, .refused ⟨10⟩, .recorded ⟨10⟩,
      .claimed ⟨5⟩, .recorded ⟨5⟩] := rfl
  have hunclaimed : ¬Offered ⟨10⟩ refusedBoth.history := by
    intro hoffered
    have hclaimed := HappenedSince.mem hoffered
    rw [hhistory] at hclaimed
    revert hclaimed
    decide
  have huncut : ¬CutShort ⟨10⟩ refusedBoth.history := by
    intro hcut
    have hmem := HappenedSince.mem hcut
    rw [hhistory] at hmem
    revert hmem
    decide
  have hhighest : ∀ r, .recorded r ∈ refusedBoth.history → r ≤ ⟨10⟩ := by
    intro r hr
    rw [hhistory] at hr
    simp only [List.mem_cons, Happening.recorded.injEq, reduceCtorEq, List.not_mem_nil, false_or,
      or_false] at hr
    rcases hr with rfl | rfl <;> decide
  obtain ⟨hreported, hfate⟩ :=
    offered_or_dropped hreachable hidle (by rw [hhistory]; decide) hhighest
  exact ⟨hreachable, hidle, hhistory, hreported, hunclaimed,
    (hfate.resolve_left hunclaimed).resolve_right huncut⟩

end CommitPipeline
