import CommitPipeline.Proofs.FailedLoad

/-!
# Notifications behind a failed load

Waiters are released by blocks that are handed to the trackers, and by the word that a cycle has
landed. Such a notification acts on one tracker at a time: what it makes of a tracker, and what it
fires through it, depends on that tracker alone. So behind a load that a tail has stopped, the
trackers from that tail on go on as they would have without the load, and the waiters of those in
front of it are released by nothing any more.

The module introduces:

* `Notification` — a block, or a cycle that has landed, with what it asks of every tracker;
* `Notification.alone`, `Notification.Fires` — what notifications make of one tracker;
* `Notification.run_apart` — what they make of a pipeline, tracker by tracker;
* `notified_after_failed_load` — who is released behind a failed load.
-/

namespace CommitPipeline

/-- What releases waiters: a block that is handed to the trackers, or the word that readers are let
in again behind a cycle that has landed. -/
inductive Notification where
  | block (block : Block) (delta : Delta)
  | landed (ticket : Ticket)

/-- A waiter of the bulletin waits on the signal; trackers of other sorts have no waiters. -/
def Member.AwaitedOn (s : SignalId) : Own → Prop
  | .memory b | .durable b => ∃ r, b.pending.get? r = some s
  | .tail _ => False

namespace Notification

/-- What a notification asks of every tracker. -/
def ask : Notification → Act Fault (Own × Effects) Unit
  | block b delta => Tracker.newBlock b delta
  | landed k => Tracker.notice .released k

/-- What notifications make of a tracker that is alone with them. -/
def alone (later : List Notification) (x : Own × Effects) : Own × Effects :=
  later.foldl (fun x n => (n.ask x).2) x

/-- The signals that notifications fire through a tracker. -/
def Fires (later : List Notification) (t : Own) (s : SignalId) : Prop :=
  (alone later (t, {})).2.signals.isFired s

/-- An announcement answers by the bulletin alone, and fires signals besides those that have fired
already. -/
theorem announce_apart (r : Round) (b : Bulletin) (fx : Effects) :
    (Bulletin.announce r (b, fx)).1 = (Bulletin.announce r (b, {})).1 ∧
      (Bulletin.announce r (b, fx)).2.1 = (Bulletin.announce r (b, {})).2.1 ∧
      ∀ s, (Bulletin.announce r (b, fx)).2.2.signals.isFired s ↔
        fx.signals.isFired s ∨ (Bulletin.announce r (b, {})).2.2.signals.isFired s := by
  have hnone : ∀ s, ¬ (({} : Effects).signals.isFired s) := fun _ => Bool.false_ne_true
  by_cases h : r < b.latest
  · simp only [Bulletin.announce, if_pos h]
    exact ⟨trivial, trivial, fun s => (or_iff_left (hnone s)).symm⟩
  · simp only [Bulletin.announce, if_neg h, Effects.signals_logIf, SignalBoard.isFired_fireAll]
    refine ⟨trivial, trivial, fun s => ?_⟩
    rw [or_iff_left (hnone s), or_comm]

/-- A tracker answers a notification by itself alone, and fires signals besides those that have
fired already. -/
theorem ask_apart (n : Notification) (t : Own) (fx : Effects) :
    (n.ask (t, fx)).1 = (n.ask (t, {})).1 ∧ (n.ask (t, fx)).2.1 = (n.ask (t, {})).2.1 ∧
      ∀ s, (n.ask (t, fx)).2.2.signals.isFired s ↔
        fx.signals.isFired s ∨ (n.ask (t, {})).2.2.signals.isFired s := by
  -- Most trackers fire nothing, whatever has fired before.
  have hquiet : ∀ s, fx.signals.isFired s ↔
      fx.signals.isFired s ∨ ({} : Effects).signals.isFired s := fun s =>
    (or_iff_left Bool.false_ne_true).symm
  cases n with
  | block block delta =>
    cases t with
    | memory b =>
      simp only [ask, Tracker.newBlock, Member.newBlock, Member.viaBulletin, Bulletin.announceBlock]
      split
      · exact ⟨rfl, rfl, hquiet⟩
      · obtain ⟨hresult, hbulletin, hfired⟩ := announce_apart block.round b fx
        exact ⟨hresult, congrArg _ hbulletin, hfired⟩
    | durable b => exact ⟨rfl, rfl, hquiet⟩
    | tail u => exact ⟨rfl, rfl, hquiet⟩
    | guest g => exact g.elim
  | landed k =>
    cases t with
    | memory b => exact ⟨rfl, rfl, hquiet⟩
    | durable b =>
      simp only [ask, Tracker.notice, Member.notice, Member.viaBulletin, Bulletin.announceLanded]
      cases k.newBase with
      | error f => exact ⟨rfl, rfl, hquiet⟩
      | ok newBase =>
        obtain ⟨hresult, hbulletin, hfired⟩ := announce_apart newBase b fx
        exact ⟨hresult, congrArg _ hbulletin, hfired⟩
    | tail u => exact ⟨rfl, rfl, hquiet⟩
    | guest g => exact g.elim

/-- What notifications make of a tracker that is alone with them does not depend on what has fired
before, and they fire signals besides that. -/
theorem alone_apart (later : List Notification) (t : Own) (fx : Effects) :
    (alone later (t, fx)).1 = (alone later (t, {})).1 ∧
      ∀ s, (alone later (t, fx)).2.signals.isFired s ↔
        fx.signals.isFired s ∨ Fires later t s := by
  induction later generalizing t fx with
  | nil => exact ⟨rfl, fun s => (or_iff_left Bool.false_ne_true).symm⟩
  | cons n rest ih =>
    obtain ⟨-, htracker, hfired⟩ := n.ask_apart t fx
    obtain ⟨hrest, hrestFired⟩ := ih (n.ask (t, fx)).2.1 (n.ask (t, fx)).2.2
    obtain ⟨hrest', hrestFired'⟩ := ih (n.ask (t, {})).2.1 (n.ask (t, {})).2.2
    rw [htracker] at hrest hrestFired
    refine ⟨(congrArg (fun u => (alone rest (u, _)).1) htracker).trans (hrest.trans hrest'.symm),
      fun s => ?_⟩
    have hfires : Fires (n :: rest) t s ↔
        (n.ask (t, {})).2.2.signals.isFired s ∨ Fires rest (n.ask (t, {})).2.1 s := hrestFired' s
    rw [hfires, ← or_assoc, ← hfired, ← hrestFired, ← htracker]
    rfl

/-- What a bulletin knows behind an announcement it knew before, and whatever the announcement fired
it knew as well. -/
theorem known_of_announce {r : Round} {b : Bulletin} {s : SignalId}
    (h : (∃ q, (Bulletin.announce r (b, {})).2.1.pending.get? q = some s) ∨
      (Bulletin.announce r (b, {})).2.2.signals.isFired s) : ∃ q, b.pending.get? q = some s := by
  rcases Bulletin.announce_cases r b {} with ⟨-, heq⟩ | ⟨-, hannounced⟩
  · rw [heq] at h
    exact h.resolve_right Bool.false_ne_true
  · rcases h with ⟨q, hknown⟩ | hfired
    · rw [hannounced.pending, Option.ite_none_left_eq_some] at hknown
      exact ⟨q, hknown.2⟩
    · obtain ⟨q, -, hknown⟩ := ((hannounced.fired s).mp hfired).resolve_left Bool.false_ne_true
      exact ⟨q, hknown⟩

/-- Whoever waits on a signal at a tracker behind a notification waited on it before, and so did
those whom the notification released. -/
theorem awaitedOn_of_ask {n : Notification} {t : Own} {s : SignalId}
    (h : (n.ask (t, {})).2.1.AwaitedOn s ∨ (n.ask (t, {})).2.2.signals.isFired s) :
    t.AwaitedOn s := by
  cases n with
  | block block delta =>
    cases t with
    -- A memory bulletin that is ahead of the block stays as it is and fires nothing.
    | memory b =>
      simp only [ask, Tracker.newBlock, Member.newBlock, Member.viaBulletin,
        Bulletin.announceBlock] at h
      split at h
      · exact h.resolve_right Bool.false_ne_true
      · exact known_of_announce h
    | durable b => exact h.resolve_right Bool.false_ne_true
    | tail u => exact h.resolve_right Bool.false_ne_true
    | guest g => exact g.elim
  | landed k =>
    cases t with
    | memory b => exact h.resolve_right Bool.false_ne_true
    | durable b =>
      simp only [ask, Tracker.notice, Member.notice, Member.viaBulletin,
        Bulletin.announceLanded] at h
      -- Without an end in the word nothing is announced.
      cases hnew : k.newBase with
      | error f =>
        rw [hnew] at h
        exact h.resolve_right Bool.false_ne_true
      | ok newBase =>
        rw [hnew] at h
        exact known_of_announce h
    | tail u => exact h.resolve_right Bool.false_ne_true
    | guest g => exact g.elim

/-- Notifications fire a signal through a tracker only if somebody waits on it there. -/
theorem awaitedOn_of_fires {later : List Notification} {t : Own} {s : SignalId}
    (h : Fires later t s) : t.AwaitedOn s := by
  induction later generalizing t with
  | nil => exact absurd h Bool.false_ne_true
  | cons n rest ih =>
    have hfires := ((alone_apart rest (n.ask (t, {})).2.1 (n.ask (t, {})).2.2).2 s).mp h
    exact awaitedOn_of_ask (hfires.symm.imp_left ih)

/-- What notifications make of a pipeline, up to the first in which a tracker is cut short. -/
def run : List Notification → Pipeline Own → Except Fault Unit × Pipeline Own
  | [], p => (.ok (), p)
  | n :: rest, p =>
    match p.ask n.ask with
    | (.error f, p) => (.error f, p)
    | (.ok (), p) => run rest p

/-- If nobody is cut short, a notification makes of every tracker what it makes of it alone, and it
fires what it fires through each of them. -/
theorem sweep_apart {n : Notification} {trackers : List Own} {fx : Effects}
    (hok : (sweep n.ask trackers fx).1 = .ok ()) :
    (sweep n.ask trackers fx).2.1 = trackers.map (fun t => (n.ask (t, {})).2.1) ∧
      ∀ s, (sweep n.ask trackers fx).2.2.signals.isFired s ↔
        fx.signals.isFired s ∨ ∃ t ∈ trackers, (n.ask (t, {})).2.2.signals.isFired s := by
  induction trackers generalizing fx with
  | nil => exact ⟨rfl, fun s => by simp [sweep]⟩
  | cons t rest ih =>
    obtain ⟨-, htracker, hfired⟩ := n.ask_apart t fx
    rcases h : n.ask (t, fx) with ⟨f | _, t', fx'⟩ <;> rw [h] at htracker hfired
    · rw [sweep_cons_of_error rest h] at hok
      cases hok
    · rw [sweep_cons_of_ok rest h] at hok ⊢
      obtain ⟨hrest, hrestFired⟩ := ih hok
      refine ⟨congrArg₂ List.cons htracker hrest, fun s => ?_⟩
      rw [hrestFired, hfired, List.exists_mem_cons_iff, or_assoc]

/-- If nobody is cut short, notifications make of every tracker what they make of it alone, and
they fire what they fire through each of them. -/
theorem run_apart {later : List Notification} {p : Pipeline Own} (hok : (run later p).1 = .ok ()) :
    (run later p).2.trackers = p.trackers.map (fun t => (alone later (t, {})).1) ∧
      ∀ s, (run later p).2.effects.signals.isFired s ↔
        p.effects.signals.isFired s ∨ ∃ t ∈ p.trackers, Fires later t s := by
  induction later generalizing p with
  | nil =>
    refine ⟨(List.map_id _).symm, fun s => (or_iff_left ?_).symm⟩
    rintro ⟨t, -, hfires⟩
    exact Bool.false_ne_true hfires
  | cons n rest ih =>
    unfold run at hok ⊢
    rcases h : p.ask n.ask with ⟨f | _, q⟩ <;> rw [h] at hok
    · cases hok
    obtain ⟨htrackers, hfired⟩ := sweep_apart (congrArg Prod.fst h)
    obtain rfl : (p.ask n.ask).2 = q := congrArg Prod.snd h
    obtain ⟨hrest, hrestFired⟩ := ih hok
    -- What a tracker becomes in later notifications does not depend on what has fired till then.
    have hstep : ∀ t, (alone (n :: rest) (t, {})).1 = (alone rest ((n.ask (t, {})).2.1, {})).1 ∧
        ∀ s, Fires (n :: rest) t s ↔
          (n.ask (t, {})).2.2.signals.isFired s ∨ Fires rest (n.ask (t, {})).2.1 s :=
      fun t => alone_apart rest (n.ask (t, {})).2.1 (n.ask (t, {})).2.2
    have hasked : (p.ask n.ask).2.trackers = p.trackers.map fun t => (n.ask (t, {})).2.1 :=
      htrackers
    have haskedFired : ∀ s, (p.ask n.ask).2.effects.signals.isFired s ↔
        p.effects.signals.isFired s ∨
          ∃ t ∈ p.trackers, (n.ask (t, {})).2.2.signals.isFired s := hfired
    refine ⟨?_, fun s => ?_⟩
    · rw [hrest, hasked, List.map_map]
      exact List.map_congr_left fun t _ => (hstep t).1.symm
    · rw [hrestFired, hasked, haskedFired]
      simp only [List.mem_map, exists_exists_and_eq_and, hstep, and_or_left, exists_or, or_assoc]

end Notification

namespace Pipeline

variable {ledger : LedgerView} {p q : Pipeline Own} {e : PipelineError}

/-- A tracker that has just started has no waiters. -/
theorem not_awaitedOn_of_reloaded {s : Store} {before before' : List Own} {signal : SignalId}
    (h : List.Forall₂ (Member.Reloaded ledger s) before before') :
    ∀ t ∈ before', ¬ t.AwaitedOn signal := by
  induction h with
  | nil => exact fun t ht => absurd ht List.not_mem_nil
  | cons hreloaded _ ih =>
    refine List.forall_mem_cons.mpr ⟨?_, ih⟩
    cases hreloaded with
    | memory b =>
      rintro ⟨r, ⟨⟩⟩
    | durable b =>
      rintro ⟨r, ⟨⟩⟩
    | tail _ => exact id

/-- What the notifications do that come after a failed load, to the trackers and to whoever waits.
Either nothing has changed, or a tail has stopped the load. Then the trackers from that tail on
become what they would have become without the load, and a waiter whom nobody in front of the tail
knew is released by the same notifications; a waiter whom nobody behind the tail knows is released
by none. -/
theorem notified_after_failed_load (h : p.load ledger = (.error (.error e), q))
    (later : List Notification) (hp : (Notification.run later p).1 = .ok ())
    (hq : (Notification.run later q).1 = .ok ()) :
    q = p ∨ ∃ before u after, p.trackers = before ++ .tail u :: after ∧
      (Notification.run later q).2.trackers.drop before.length =
        (Notification.run later p).2.trackers.drop before.length ∧
      ∀ s, ¬ p.effects.signals.isFired s →
        ((∀ t ∈ before, ¬ t.AwaitedOn s) →
          ((Notification.run later q).2.effects.signals.isFired s ↔
            (Notification.run later p).2.effects.signals.isFired s)) ∧
        ((∀ t ∈ after, ¬ t.AwaitedOn s) →
          ¬ (Notification.run later q).2.effects.signals.isFired s) := by
  obtain ⟨rfl, -⟩ | ⟨before, before', u, after, journal, htrackers, -, hreloaded, hload⟩ :=
    failed_load_cases h
  · exact .inl rfl
  obtain ⟨hafterP, hfiredP⟩ := Notification.run_apart hp
  obtain ⟨hafterQ, hfiredQ⟩ := Notification.run_apart hq
  have htrackers' : q.trackers = before' ++ .tail u :: after := by rw [hload]
  have hsignals : q.effects.signals = p.effects.signals := by rw [hload]
  refine .inr ⟨before, u, after, htrackers, ?_, fun s hunfired => ?_⟩
  · have hlength : before'.length = before.length := hreloaded.length_eq.symm
    rw [hafterP, hafterQ, htrackers, htrackers', List.map_append, List.map_append]
    rw [List.drop_left' (by rw [List.length_map, hlength]),
      List.drop_left' (by rw [List.length_map])]
  -- A tail releases nobody, so of the waiters only those behind it and those in front matter.
  have hsplit : ∀ front : List Own, (∀ t ∈ front, ¬ t.AwaitedOn s) →
      ((∃ t ∈ front ++ .tail u :: after, Notification.Fires later t s) ↔
        ∃ t ∈ after, Notification.Fires later t s) := by
    intro front hfront
    constructor
    · rintro ⟨t, ht, hfires⟩
      have hawaited := Notification.awaitedOn_of_fires hfires
      rcases List.mem_append.mp ht with ht | ht
      · exact absurd hawaited (hfront t ht)
      · rcases List.mem_cons.mp ht with rfl | ht
        · exact hawaited.elim
        · exact ⟨t, ht, hfires⟩
    · rintro ⟨t, ht, hfires⟩
      exact ⟨t, List.mem_append_right _ (List.mem_cons_of_mem _ ht), hfires⟩
  have hreleased : (Notification.run later q).2.effects.signals.isFired s ↔
      ∃ t ∈ after, Notification.Fires later t s := by
    rw [hfiredQ, hsignals, htrackers', or_iff_right hunfired,
      hsplit before' (not_awaitedOn_of_reloaded hreloaded)]
  constructor
  · intro hbefore
    rw [hreleased, hfiredP, htrackers, or_iff_right hunfired, hsplit before hbefore]
  · intro hnone
    rw [hreleased]
    rintro ⟨t, ht, hfires⟩
    exact hnone t ht (Notification.awaitedOn_of_fires hfires)

end Pipeline

end CommitPipeline
