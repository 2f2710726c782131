import CommitPipeline.Tracker.Bulletin
import CommitPipeline.Tracker.Tail

/-!
# Members

A member of a pipeline is one of the trackers of the library or a guest:

* `memory` — a bulletin that announces a round as soon as its block is applied in memory;
* `durable` — a bulletin that announces a round once the transaction that covers it has landed;
* `tail` — a block tail;
* `guest` — a tracker from outside.
-/

namespace CommitPipeline

/-- A tracker of a pipeline. -/
inductive Member (γ : Type) where
  | memory (bulletin : Bulletin)
  | durable (bulletin : Bulletin)
  | tail (tail : Tail)
  | guest (guest : γ)

namespace Member

variable {γ : Type} [Guest γ]

/-- The name of a member. -/
def name : Member γ → String
  | memory _ => "bulletin_mem"
  | durable _ => "bulletin_disk"
  | tail _ => Tail.name
  | guest g => Guest.name g

/-- Asks a bulletin, and puts it back under its constructor. -/
def viaBulletin {ε α : Type} (wrap : Bulletin → Member γ) (act : Act ε (Bulletin × Effects) α)
    (b : Bulletin) (fx : Effects) : Except ε α × Member γ × Effects :=
  let (result, b, fx) := act (b, fx)
  (result, wrap b, fx)

/-- Asks a guest, the call being noted first. -/
def viaGuest {ε α : Type} (call : Call) (act : Act ε γ α) (g : γ) (fx : Effects) :
    Except ε α × Member γ × Effects :=
  let fx := fx.noteCall (Guest.name g) call
  let (result, g) := act g
  (result, guest g, fx)

/-- A member starts from the store: a memory bulletin at the latest round of the ledger, a durable
one at the durable round, the tail with the rows of its window. -/
def load (ledger : LedgerView) (s : Store) (durableRound : Round) :
    Act Stop (Member γ × Effects) Unit
  | (memory b, fx) =>
    let (b, fx) := b.restart ledger.latest fx
    (.ok (), memory b, fx)
  | (durable b, fx) =>
    let (b, fx) := b.restart durableRound fx
    (.ok (), durable b, fx)
  | (tail t, fx) =>
    match t.reload s durableRound with
    | .error stop => (.error stop, tail t, fx)
    | .ok t => (.ok (), tail t, fx)
  | (guest g, fx) =>
    viaGuest (.load durableRound ledger.latest) (Guest.load ledger s durableRound) g fx

/-- A member takes a block. -/
def newBlock (block : Block) (delta : Delta) : Act Fault (Member γ × Effects) Unit
  | (memory b, fx) => viaBulletin memory (Bulletin.announceBlock block) b fx
  | (durable b, fx) => (.ok (), durable b, fx)
  | (tail t, fx) => (.ok (), tail (t.add block), fx)
  | (guest g, fx) =>
    viaGuest (.newBlock block.round delta.round) (Guest.newBlock block delta) g fx

/-- What a member needs once a round is committed. -/
def need (committed : Round) : Act Fault (Member γ × Effects) Need
  | (memory b, fx) => (.ok ⟨committed, 0⟩, memory b, fx)
  | (durable b, fx) => (.ok ⟨committed, 0⟩, durable b, fx)
  | (tail t, fx) => (t.need committed, tail t, fx)
  | (guest g, fx) => viaGuest (.need committed) (Guest.need committed) g fx

/-- What a member makes of a proposed range. -/
def refine (committed durableRound : Round) (range : CommitRange) :
    Act Fault (Member γ × Effects) (Option CommitRange)
  | (memory b, fx) => (.ok (some range), memory b, fx)
  | (durable b, fx) => (.ok (some range), durable b, fx)
  | (tail t, fx) => (.ok (t.refine range), tail t, fx)
  | (guest g, fx) =>
    viaGuest (.refine committed durableRound range) (Guest.refine committed durableRound range) g fx

/-- A member gets ready to write a range. -/
def prepare : Act Stop (Member γ × Effects × Ticket) Unit
  | (memory b, fx, k) => (.ok (), memory b, fx, k)
  | (durable b, fx, k) => (.ok (), durable b, fx, k)
  | (tail t, fx, k) =>
    match t.stage k.range with
    | .error stop => (.error stop, tail t, fx, k)
    | .ok t => (.ok (), tail t, fx, k)
  | (guest g, fx, k) =>
    let fx := fx.noteCall (Guest.name g) (.prepare k)
    let (result, g, k) := Guest.prepare (g, k)
    (result, guest g, fx, k)

/-- A member writes its part of a range. -/
def write : Act Stop (Member γ × Effects × Ticket × Store) Unit
  | (memory b, fx, k, s) => (.ok (), memory b, fx, k, s)
  | (durable b, fx, k, s) => (.ok (), durable b, fx, k, s)
  | (tail t, fx, k, s) =>
    match t.writeStaged k.range s with
    | (.error stop, s) => (.error stop, tail t, fx, k, s)
    | (.ok pruned, s) => (.ok (), tail t, fx.logIf (pruned ≠ 0) (.rowsPruned pruned), k, s)
  | (guest g, fx, k, s) =>
    let fx := fx.noteCall (Guest.name g) (.write k s.round)
    let (result, g, k, s) := Guest.write (g, k, s)
    (result, guest g, fx, k, s)

/-- A member hears how a cycle went on. -/
def notice (n : Notice) (k : Ticket) : Act Fault (Member γ × Effects) Unit
  | (memory b, fx) => (.ok (), memory b, fx)
  | (durable b, fx) =>
    match n with
    | .released => viaBulletin durable (Bulletin.announceLanded k) b fx
    | _ => (.ok (), durable b, fx)
  | (tail t, fx) =>
    match n with
    | .landed =>
      match t.advance k.range with
      | .error f => (.error f, tail t, fx)
      | .ok t => (.ok (), tail t, fx)
    | .prepareFailed =>
      let (t, fx) := t.dropStaged .prepareFailed fx
      (.ok (), tail t, fx)
    | .writeFailed =>
      let (t, fx) := t.dropStaged .rolledBack fx
      (.ok (), tail t, fx)
    | .released | .outOfOrder => (.ok (), tail t, fx)
  | (guest g, fx) => viaGuest (.told n k) (Guest.notice n k) g fx

/-- A member gives up what it holds. -/
def close : Act Fault (Member γ × Effects) Unit
  | (memory b, fx) => (.ok (), memory b, fx)
  | (durable b, fx) => (.ok (), durable b, fx)
  | (tail t, fx) => (.ok (), tail t.clear, fx)
  | (guest g, fx) => viaGuest .close Guest.close g fx

instance : Tracker (Member γ) where
  name := name
  load := load
  newBlock := newBlock
  need := need
  refine := refine
  prepare := prepare
  write := write
  notice := notice
  close := close

end Member

end CommitPipeline
