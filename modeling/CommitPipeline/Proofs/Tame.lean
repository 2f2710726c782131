import CommitPipeline.Proofs.Steady
import CommitPipeline.Tracker.Scripted

/-!
# Tame guests

What the proofs about runs ask of guests, and guests that live up to it: scripted trackers that may
object and fail wherever they like, but hand every ticket on with its range and hear out what they
are told.
-/

namespace CommitPipeline

/-- Guests that are never cut short in hearing how a cycle went on. -/
class HearsOut (γ : Type) [Guest γ] : Prop where
  /-- Whatever they are told, they answer. -/
  notice_ok : ∀ (n : Notice) (k : Ticket) (g : γ), (Guest.notice n k g).1 = .ok ()

/-- A scripted tracker that leaves ranges alone once they are negotiated, and is not cut short. -/
structure Tame where
  /-- The tracker. -/
  scripted : Scripted
  lengthAfterPrepare : scripted.script.lengthAfterPrepare = none := by rfl
  lengthAfterWrite : scripted.script.lengthAfterWrite = none := by rfl
  faultOnLanded : scripted.script.faultOnLanded = false := by rfl

namespace Tame

/-- Asks the scripted tracker, which never changes. -/
instance : Guest Tame where
  name t := t.scripted.name
  load ledger s durable t := ((Guest.load ledger s durable t.scripted).1, t)
  newBlock block delta t := ((Guest.newBlock block delta t.scripted).1, t)
  need committed t := ((Guest.need committed t.scripted).1, t)
  refine committed durable range t := ((Guest.refine committed durable range t.scripted).1, t)
  prepare := fun (t, k) =>
    let (result, _, k) := Guest.prepare (t.scripted, k)
    (result, t, k)
  write := fun (t, k, s) =>
    let (result, _, k, s) := Guest.write (t.scripted, k, s)
    (result, t, k, s)
  notice n k t := ((Guest.notice n k t.scripted).1, t)
  close t := ((Guest.close t.scripted).1, t)

instance : KeepsRange Tame where
  range_prepare t k := by
    show (Guest.prepare (t.scripted, k)).2.2.range = k.range
    simp only [Guest.prepare]
    split
    · rfl
    · rw [t.lengthAfterPrepare]
      rfl
  range_write t k s := by
    show (Guest.write (t.scripted, k, s)).2.2.1.range = k.range
    simp only [Guest.write]
    split
    · rfl
    · split
      · rfl
      · rw [t.lengthAfterWrite]
        rfl

instance : HearsOut Tame where
  notice_ok n k t := by
    show (Guest.notice n k t.scripted).1 = .ok ()
    simp [Guest.notice, t.faultOnLanded]

end Tame

end CommitPipeline
