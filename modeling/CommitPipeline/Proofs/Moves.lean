import CommitPipeline.Proofs.Alike
import CommitPipeline.Proofs.Sessions

/-!
# Moves over related guests

Whatever can be done to a pipeline, together with waits for rounds at its bulletins. If the trackers
of the library are the same in two pipelines and their guests cannot be told apart, every move leads
to such pipelines again.

The module introduces:

* `Member.Alike` — the same tracker of the library, or related guests;
* `Guest.Bisimulation` — guests that answer alike, and with them all members;
* `Move` — an operation or a wait, with `Pipeline.alike_runAll` for runs of moves.
-/

namespace CommitPipeline

/-! ## Guests that cannot be told apart -/

/-- Guests that nobody can tell apart: they answer every question alike, alter tickets and stores
alike, and are related again behind it. -/
structure Guest.Bisimulation {γ : Type} [Guest γ] (R : γ → γ → Prop) : Prop where
  name : ∀ g h, R g h → Guest.name g = Guest.name h
  load : ∀ ledger s r, Respects R (Guest.load ledger s r)
  newBlock : ∀ block delta, Respects R (Guest.newBlock block delta)
  need : ∀ committed, Respects R (Guest.need committed)
  refine : ∀ committed durable range, Respects R (Guest.refine committed durable range)
  prepare : Respects (Beside R Eq) Guest.prepare
  write : Respects (Beside R Eq) Guest.write
  notice : ∀ n k, Respects R (Guest.notice n k)
  close : Respects R Guest.close

/-- Guests in the same state cannot be told apart. -/
theorem Guest.Bisimulation.eq (γ : Type) [Guest γ] : Guest.Bisimulation (@Eq γ) where
  name := by
    rintro g _ rfl
    rfl
  load _ _ _ := by
    rintro g _ rfl
    exact ⟨rfl, rfl⟩
  newBlock _ _ := by
    rintro g _ rfl
    exact ⟨rfl, rfl⟩
  need _ := by
    rintro g _ rfl
    exact ⟨rfl, rfl⟩
  refine _ _ _ := by
    rintro g _ rfl
    exact ⟨rfl, rfl⟩
  prepare := by
    rintro ⟨g, k⟩ ⟨_, _⟩ ⟨rfl, rfl⟩
    exact ⟨rfl, rfl, rfl⟩
  write := by
    rintro ⟨g, k, s⟩ ⟨_, _⟩ ⟨rfl, rfl⟩
    exact ⟨rfl, rfl, rfl⟩
  notice _ _ := by
    rintro g _ rfl
    exact ⟨rfl, rfl⟩
  close := by
    rintro g _ rfl
    exact ⟨rfl, rfl⟩

namespace Bulletin

/-- Bulletins in the same state fire the same signals. -/
theorem respects_announce (r : Round) : Respects (Beside Eq Effects.Alike) (announce r) := by
  rintro ⟨b, fx⟩ ⟨_, fy⟩ ⟨rfl, hsignals⟩
  have hsignals : fx.signals = fy.signals := hsignals
  unfold announce
  simp only
  split
  · exact ⟨rfl, rfl, hsignals⟩
  · refine ⟨rfl, rfl, ?_⟩
    unfold Effects.Alike
    rw [Effects.signals_logIf, Effects.signals_logIf, hsignals]

/-- They do so for a block. -/
theorem respects_announceBlock (block : Block) :
    Respects (Beside Eq Effects.Alike) (announceBlock block) := by
  rintro ⟨b, fx⟩ ⟨_, fy⟩ ⟨rfl, hsignals⟩
  unfold announceBlock
  simp only
  split
  · exact ⟨rfl, rfl, hsignals⟩
  · exact respects_announce block.round (b, fx) (b, fy) ⟨rfl, hsignals⟩

/-- And they do so for a landed cycle. -/
theorem respects_announceLanded (k : Ticket) :
    Respects (Beside Eq Effects.Alike) (announceLanded k) := by
  rintro ⟨b, fx⟩ ⟨_, fy⟩ ⟨rfl, hsignals⟩
  unfold announceLanded
  cases k.newBase with
  | error f => exact ⟨rfl, rfl, hsignals⟩
  | ok newBase => exact respects_announce newBase (b, fx) (b, fy) ⟨rfl, hsignals⟩

end Bulletin

namespace Member

variable {γ : Type} {R : γ → γ → Prop}

/-- The same tracker of the library, or guests that are related. -/
inductive Alike (R : γ → γ → Prop) : Member γ → Member γ → Prop
  | memory (b : Bulletin) : Alike R (memory b) (memory b)
  | durable (b : Bulletin) : Alike R (durable b) (durable b)
  | tail (t : Tail) : Alike R (tail t) (tail t)
  | guest {g h : γ} (hrelated : R g h) : Alike R (guest g) (guest h)

variable [Guest γ]

omit [Guest γ] in
/-- A bulletin that is asked through its constructor. -/
theorem respects_viaBulletin {ε α : Type} {wrap : Bulletin → Member γ}
    {act : Act ε (Bulletin × Effects) α} (hwrap : ∀ b, Alike R (wrap b) (wrap b))
    (hact : Respects (Beside Eq Effects.Alike) act) (b : Bulletin) {fx fy : Effects}
    (hsignals : fx.Alike fy) :
    (viaBulletin wrap act b fx).1 = (viaBulletin wrap act b fy).1 ∧
      Beside (Alike R) Effects.Alike (viaBulletin wrap act b fx).2
        (viaBulletin wrap act b fy).2 := by
  obtain ⟨hresult, hbulletin, hsignals⟩ := hact (b, fx) (b, fy) ⟨rfl, hsignals⟩
  unfold viaBulletin
  refine ⟨hresult, ?_, hsignals⟩
  show Alike R (wrap (act (b, fx)).2.1) (wrap (act (b, fy)).2.1)
  rw [hbulletin]
  exact hwrap _

/-- Guests that are asked, the call being noted first. -/
theorem respects_viaGuest {ε α : Type} (call : Call) {act : Act ε γ α} (hact : Respects R act)
    {g h : γ} (hrelated : R g h) {fx fy : Effects} (hsignals : fx.Alike fy) :
    (viaGuest call act g fx).1 = (viaGuest call act h fy).1 ∧
      Beside (Alike R) Effects.Alike (viaGuest call act g fx).2 (viaGuest call act h fy).2 := by
  obtain ⟨hresult, hrelated⟩ := hact g h hrelated
  exact ⟨hresult, .guest hrelated, hsignals⟩

variable (hR : Guest.Bisimulation R)
include hR

/-- Members that are alike start from a store alike. -/
theorem respects_load (ledger : LedgerView) (s : Store) (r : Round) :
    Respects (Beside (Alike R) Effects.Alike) (load ledger s r) := by
  rintro ⟨t, fx⟩ ⟨u, fy⟩ ⟨htu, hsignals⟩
  have hlog : ∀ condition e, (fx.logIf condition e).Alike (fy.logIf condition e) := by
    intro condition e
    unfold Effects.Alike
    rw [Effects.signals_logIf, Effects.signals_logIf]
    exact hsignals
  cases htu with
  | memory b => exact ⟨rfl, .memory _, hlog _ _⟩
  | durable b => exact ⟨rfl, .durable _, hlog _ _⟩
  | tail t =>
    simp only [load]
    cases t.reload s r with
    | error stop => exact ⟨rfl, .tail _, hsignals⟩
    | ok t => exact ⟨rfl, .tail _, hsignals⟩
  | guest hrelated => exact respects_viaGuest _ (hR.load ledger s r) hrelated hsignals

/-- They take in a block alike. -/
theorem respects_newBlock (block : Block) (delta : Delta) :
    Respects (Beside (Alike R) Effects.Alike) (newBlock block delta) := by
  rintro ⟨t, fx⟩ ⟨u, fy⟩ ⟨htu, hsignals⟩
  cases htu with
  | memory b =>
    exact respects_viaBulletin .memory (Bulletin.respects_announceBlock block) b hsignals
  | durable b => exact ⟨rfl, .durable _, hsignals⟩
  | tail t => exact ⟨rfl, .tail _, hsignals⟩
  | guest hrelated => exact respects_viaGuest _ (hR.newBlock block delta) hrelated hsignals

/-- They need the same. -/
theorem respects_need (committed : Round) :
    Respects (Beside (Alike R) Effects.Alike) (need committed) := by
  rintro ⟨t, fx⟩ ⟨u, fy⟩ ⟨htu, hsignals⟩
  cases htu with
  | memory b => exact ⟨rfl, .memory _, hsignals⟩
  | durable b => exact ⟨rfl, .durable _, hsignals⟩
  | tail t => exact ⟨rfl, .tail _, hsignals⟩
  | guest hrelated => exact respects_viaGuest _ (hR.need committed) hrelated hsignals

/-- They narrow a range to the same one, or object alike. -/
theorem respects_refine (committed durableRound : Round) (range : CommitRange) :
    Respects (Beside (Alike R) Effects.Alike) (refine committed durableRound range) := by
  rintro ⟨t, fx⟩ ⟨u, fy⟩ ⟨htu, hsignals⟩
  cases htu with
  | memory b => exact ⟨rfl, .memory _, hsignals⟩
  | durable b => exact ⟨rfl, .durable _, hsignals⟩
  | tail t => exact ⟨rfl, .tail _, hsignals⟩
  | guest hrelated =>
    exact respects_viaGuest _ (hR.refine committed durableRound range) hrelated hsignals

/-- They get ready alike and hand on the same ticket. -/
theorem respects_prepare : Respects (Beside (Alike R) Effects.AlikeWith) prepare := by
  rintro ⟨t, fx, k⟩ ⟨u, fy, _⟩ ⟨htu, hsignals, rfl⟩
  cases htu with
  | memory b => exact ⟨rfl, .memory _, hsignals, rfl⟩
  | durable b => exact ⟨rfl, .durable _, hsignals, rfl⟩
  | tail t =>
    simp only [prepare]
    cases t.stage k.range with
    | error stop => exact ⟨rfl, .tail _, hsignals, rfl⟩
    | ok t => exact ⟨rfl, .tail _, hsignals, rfl⟩
  | @guest g h hrelated =>
    obtain ⟨hresult, hrelated, hticket⟩ := hR.prepare (g, k) (h, k) ⟨hrelated, rfl⟩
    exact ⟨hresult, .guest hrelated, hsignals, hticket⟩

/-- They write the same into the same store. -/
theorem respects_write : Respects (Beside (Alike R) Effects.AlikeWith) write := by
  rintro ⟨t, fx, k, s⟩ ⟨u, fy, _⟩ ⟨htu, hsignals, rfl⟩
  cases htu with
  | memory b => exact ⟨rfl, .memory _, hsignals, rfl⟩
  | durable b => exact ⟨rfl, .durable _, hsignals, rfl⟩
  | tail t =>
    simp only [write]
    rcases t.writeStaged k.range s with ⟨stop | pruned, s'⟩
    · exact ⟨rfl, .tail _, hsignals, rfl⟩
    · refine ⟨rfl, .tail _, ?_, rfl⟩
      show (fx.logIf _ _).signals = (fy.logIf _ _).signals
      rw [Effects.signals_logIf, Effects.signals_logIf]
      exact hsignals
  | @guest g h hrelated =>
    obtain ⟨hresult, hrelated, hrest⟩ := hR.write (g, k, s) (h, k, s) ⟨hrelated, rfl⟩
    exact ⟨hresult, .guest hrelated, hsignals, hrest⟩

/-- They hear alike how a cycle goes on. -/
theorem respects_notice (n : Notice) (k : Ticket) :
    Respects (Beside (Alike R) Effects.Alike) (notice n k) := by
  rintro ⟨t, fx⟩ ⟨u, fy⟩ ⟨htu, hsignals⟩
  -- A tail logs that it drops rows; reports are not what it is compared by.
  have hlog : ∀ condition e, (fx.logIf condition e).Alike (fy.logIf condition e) := by
    intro condition e
    unfold Effects.Alike
    rw [Effects.signals_logIf, Effects.signals_logIf]
    exact hsignals
  cases htu with
  | memory b => exact ⟨rfl, .memory _, hsignals⟩
  | durable b =>
    cases n with
    | released =>
      exact respects_viaBulletin .durable (Bulletin.respects_announceLanded k) b hsignals
    | landed | outOfOrder | prepareFailed | writeFailed => exact ⟨rfl, .durable _, hsignals⟩
  | tail t =>
    cases n with
    | landed =>
      simp only [notice]
      cases t.advance k.range with
      | error f => exact ⟨rfl, .tail _, hsignals⟩
      | ok t => exact ⟨rfl, .tail _, hsignals⟩
    | prepareFailed | writeFailed => exact ⟨rfl, .tail _, hlog _ _⟩
    | released | outOfOrder => exact ⟨rfl, .tail _, hsignals⟩
  | guest hrelated => exact respects_viaGuest _ (hR.notice n k) hrelated hsignals

/-- They are closed alike. -/
theorem respects_close : Respects (Beside (Alike R) Effects.Alike) close := by
  rintro ⟨t, fx⟩ ⟨u, fy⟩ ⟨htu, hsignals⟩
  cases htu with
  | memory b => exact ⟨rfl, .memory _, hsignals⟩
  | durable b => exact ⟨rfl, .durable _, hsignals⟩
  | tail t => exact ⟨rfl, .tail _, hsignals⟩
  | guest hrelated => exact respects_viaGuest _ hR.close hrelated hsignals

/-- Members whose guests cannot be told apart cannot be told apart. -/
theorem bisimulation : Tracker.Bisimulation (Alike R) where
  name := by
    intro t u htu
    cases htu with
    | memory b | durable b | tail t => rfl
    | guest hrelated => exact hR.name _ _ hrelated
  load := respects_load hR
  newBlock := respects_newBlock hR
  need := respects_need hR
  refine := respects_refine hR
  prepare := respects_prepare hR
  write := respects_write hR
  notice := respects_notice hR
  close := respects_close hR

end Member

/-! ## Waits and runs -/

/-- A bulletin is asked for a handle; other trackers have none to give. -/
def Member.wait {γ : Type} (r : Round) (t : Member γ) (board : SignalBoard) :
    Member γ × SignalBoard :=
  match t with
  | memory b => (memory (b.wait board r).2.1, (b.wait board r).2.2)
  | durable b => (durable (b.wait board r).2.1, (b.wait board r).2.2)
  | tail t => (tail t, board)
  | guest g => (guest g, board)

/-- The tracker at a place, if there is one, is asked for a handle. -/
def Pipeline.waitAt {γ : Type} (place : Nat) (r : Round) (p : Pipeline (Member γ)) :
    Pipeline (Member γ) :=
  match p.trackers[place]? with
  | none => p
  | some t =>
    let (t, signals) := t.wait r p.effects.signals
    p.putBack (p.trackers.set place t) signals

/-- Something that is done to a pipeline, or a wait. -/
inductive Move where
  /-- Something is done to the pipeline. -/
  | operate (operation : Operation)
  /-- Somebody wants to wait for a round at the bulletin at a place. -/
  | wait (place : Nat) (round : Round)

namespace Move

variable {γ : Type} [Guest γ]

/-- What a move does. -/
def run : Move → Pipeline (Member γ) → Pipeline (Member γ)
  | operate operation, p => operation.run p
  | wait place r, p => p.waitAt place r

/-- Moves one after the other. -/
def runAll (moves : List Move) (p : Pipeline (Member γ)) : Pipeline (Member γ) :=
  moves.foldl (fun p move => move.run p) p

end Move

namespace Pipeline

/-- In related lists the same places are taken, by related elements, and these may be replaced. -/
theorem forall₂_place {τ : Type} {T : τ → τ → Prop} {ts us : List τ} (h : List.Forall₂ T ts us)
    (place : Nat) :
    (ts[place]? = none ∧ us[place]? = none) ∨
      ∃ t u, ts[place]? = some t ∧ us[place]? = some u ∧ T t u ∧
        ∀ t' u', T t' u' → List.Forall₂ T (ts.set place t') (us.set place u') := by
  induction h generalizing place with
  | nil => exact .inl ⟨rfl, rfl⟩
  | @cons t u ts us htu hrest ih =>
    cases place with
    | zero => exact .inr ⟨t, u, rfl, rfl, htu, fun _ _ h' => .cons h' hrest⟩
    | succ place =>
      obtain hnone | ⟨t', u', ht, hu, htu', hset⟩ := ih place
      · exact .inl hnone
      · exact .inr ⟨t', u', ht, hu, htu', fun _ _ h' => .cons htu (hset _ _ h')⟩

variable {γ : Type} {R : γ → γ → Prop} {p q : Pipeline (Member γ)}

/-- What a tracker keeps when it is asked for a handle, all trackers keep when one of them is. -/
theorem forall_waitAt {G : Member γ → Prop} (hwait : ∀ t r board, G t → G (t.wait r board).1)
    (place : Nat) (r : Round) (hp : ∀ t ∈ p.trackers, G t) :
    ∀ t ∈ (p.waitAt place r).trackers, G t := by
  unfold waitAt
  cases hplace : p.trackers[place]? with
  | none => exact hp
  | some t =>
    intro u hu
    rcases List.mem_or_eq_of_mem_set hu with hu | rfl
    · exact hp u hu
    · exact hwait t r _ (hp t (List.mem_of_getElem? hplace))

/-- A wait at the same place gets the same handle in both pipelines. -/
theorem alike_waitAt (h : p.Alike (Member.Alike R) q) (place : Nat) (r : Round) :
    (p.waitAt place r).Alike (Member.Alike R) (q.waitAt place r) := by
  have h₀ := h
  obtain ⟨us, fx, rfl, htrackers, hsignals⟩ := h
  have hsignals : p.effects.signals = fx.signals := hsignals
  unfold waitAt
  obtain ⟨ht, hu⟩ | ⟨t, u, ht, hu, htu, hset⟩ := forall₂_place htrackers place
  · simp only [ht, hu]
    exact h₀
  simp only [ht, hu, ← hsignals]
  -- The handle comes from the bulletin and the signals, and both are the same.
  cases htu with
  | memory b => exact ⟨_, _, rfl, hset _ _ (.memory _), rfl⟩
  | durable b => exact ⟨_, _, rfl, hset _ _ (.durable _), rfl⟩
  | tail t => exact ⟨_, _, rfl, hset _ _ (.tail _), rfl⟩
  | guest hrelated => exact ⟨_, _, rfl, hset _ _ (.guest hrelated), rfl⟩

end Pipeline

section Runs

variable {τ : Type} [Tracker τ] {T : τ → τ → Prop} {p q : Pipeline τ}

/-- A request leads from pipelines that are alike to pipelines that are alike. -/
theorem Request.alike_run (hT : Tracker.Bisimulation T) (request : Request) (h : p.Alike T q) :
    (request.run p).Alike T (request.run q) := by
  cases request with
  | report round =>
    obtain ⟨_, p', q', hp, hq, h'⟩ := Pipeline.alike_report hT h round
    rw [run, run, hp, hq]
    exact h'
  | schedule committed lookback =>
    obtain ⟨_, p', q', hp, hq, h'⟩ := Pipeline.alike_schedule hT h committed lookback
    rw [run, run, hp, hq]
    exact h'
  | commit k =>
    obtain ⟨_, _, p', q', hp, hq, h'⟩ := Pipeline.alike_commit hT h k
    rw [run, run, hp, hq]
    exact h'
  -- Whether there is a worker already is the same for both.
  | startWorker =>
    obtain ⟨e, hp, hq⟩ | ⟨p', q', hp, hq, h'⟩ := Pipeline.alike_startWorker h <;>
      rw [run, run, hp, hq]
    · exact h
    · exact h'
  | takeTicket =>
    obtain ⟨hp, hq⟩ | ⟨k, p', q', hp, hq, h'⟩ := Pipeline.alike_takeTicket h <;>
      rw [run, run, hp, hq]
    · exact h
    · exact h'
  | work k =>
    obtain ⟨result, _, p', q', hp, hq, h'⟩ := Pipeline.alike_runWithRetries hT h k
    rw [run, run, hp, hq]
    exact Pipeline.alike_log h' (Pipeline.summaryEvent result)
  -- A worker that is cut short loses its queue in both pipelines.
  | complete handled =>
    obtain ⟨answer, p', q', hp, hq, h'⟩ := Pipeline.alike_complete hT h handled
    rw [run, run, hp, hq]
    cases answer with
    | error f => exact Pipeline.alike_dropIntake h'
    | ok _ => exact h'
  | retire => exact Pipeline.alike_dropIntake (Pipeline.alike_log h .workerStopped)

/-- So does any operation, loads and blocks among them. -/
theorem Operation.alike_run (hT : Tracker.Bisimulation T) (operation : Operation)
    (h : p.Alike T q) : (operation.run p).Alike T (operation.run q) := by
  cases operation with
  | load ledger =>
    obtain ⟨_, p', q', hp, hq, h'⟩ := Pipeline.alike_load hT h ledger
    rw [run, run, hp, hq]
    exact h'
  | newBlock block delta =>
    obtain ⟨_, p', q', hp, hq, h'⟩ := Pipeline.alike_newBlock hT h block delta
    rw [run, run, hp, hq]
    exact h'
  | request r => exact r.alike_run hT h
  | close => exact Pipeline.alike_close hT h

end Runs

/-- Whatever is done to two pipelines that are alike, they stay alike. -/
theorem Pipeline.alike_runAll {γ : Type} [Guest γ] {R : γ → γ → Prop}
    (hR : Guest.Bisimulation R) (moves : List Move) {p q : Pipeline (Member γ)}
    (h : p.Alike (Member.Alike R) q) :
    (Move.runAll moves p).Alike (Member.Alike R) (Move.runAll moves q) := by
  induction moves generalizing p q with
  | nil => exact h
  | cons move rest ih =>
    cases move with
    | operate operation => exact ih (operation.alike_run (Member.bisimulation hR) h)
    | wait place r => exact ih (alike_waitAt h place r)

end CommitPipeline
