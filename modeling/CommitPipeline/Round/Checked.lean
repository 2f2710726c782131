import CommitPipeline.Fault

/-!
# Arithmetic that stays in the word

Sums, differences and products of 64-bit words, and the successor of a round. Each gives its
exact value or the fault that says it has none in the word.
-/

namespace CommitPipeline

namespace Word

/-- A number as a word, if it is one. -/
def ofNat? (n : Nat) : Option UInt64 := if n < Round.limit then some (UInt64.ofNat n) else none

/-- The sum of two words, if it is a word. -/
def add (a b : UInt64) : Except Fault UInt64 :=
  if a.toNat + b.toNat < Round.limit then .ok (a + b) else .error .addOverflow

/-- The difference of two words, if it is not negative. -/
def sub (a b : UInt64) : Except Fault UInt64 :=
  if b ≤ a then .ok (a - b) else .error .subOverflow

/-- The product of two words, if it is a word. -/
def mul (a b : UInt64) : Except Fault UInt64 :=
  if a.toNat * b.toNat < Round.limit then .ok (a * b) else .error .mulOverflow

/-- A sum that is a word is the sum of the numbers. -/
theorem add_eq_ok_iff {a b c : UInt64} :
    add a b = .ok c ↔ a.toNat + b.toNat = c.toNat := by
  unfold add
  by_cases h : a.toNat + b.toNat < Round.limit
  · rw [if_pos h, Except.ok.injEq, ← UInt64.toNat_inj, UInt64.toNat_add, Nat.mod_eq_of_lt h]
  · rw [if_neg h]
    have := c.toNat_lt
    constructor
    · intro hc; cases hc
    · intro hc; exact absurd (hc ▸ this) h

/-- The only fault of a sum is that it leaves the word. -/
theorem add_eq_error_iff {a b : UInt64} {f : Fault} :
    add a b = .error f ↔ f = .addOverflow ∧ Round.limit ≤ a.toNat + b.toNat := by
  unfold add
  by_cases h : a.toNat + b.toNat < Round.limit
  · simp [h]
  · simp only [if_neg h, Except.error.injEq]
    exact ⟨fun e => ⟨e.symm, Nat.le_of_not_lt h⟩, fun e => e.1.symm⟩

end Word

namespace Round

/-- The round `n` rounds further on. -/
def plus (r : Round) (n : UInt64) : Except Fault Round :=
  (Word.add r.val n).map Round.mk

/-- The round that follows. -/
def next (r : Round) : Except Fault Round := r.plus 1

/-- The round `n` rounds back, a fault if there are not so many. -/
def minus (r : Round) (n : UInt64) : Except Fault Round := (Word.sub r.val n).map Round.mk

/-- Going on from a round adds to its number. -/
theorem plus_eq_ok_iff {r s : Round} {n : UInt64} :
    r.plus n = .ok s ↔ r.toNat + n.toNat = s.toNat := by
  unfold plus
  cases h : Word.add r.val n with
  | ok w =>
    have hw := Word.add_eq_ok_iff.mp h
    simp only [Except.map, Except.ok.injEq, ← toNat_inj, toNat_mk]
    exact ⟨fun e => hw.trans e, fun e => hw.symm.trans e⟩
  | error f =>
    have hw := (Word.add_eq_error_iff.mp h).2
    have := s.toNat_lt
    simp only [Except.map, reduceCtorEq, false_iff]
    intro e
    exact absurd (Nat.lt_of_le_of_lt hw (e ▸ this)) (Nat.lt_irrefl _)

/-- Going on fails only where it would leave the word. -/
theorem plus_eq_error_iff {r : Round} {n : UInt64} {f : Fault} :
    r.plus n = .error f ↔ f = .addOverflow ∧ limit ≤ r.toNat + n.toNat := by
  unfold plus
  cases h : Word.add r.val n with
  | ok w =>
    have hw : r.val.toNat + n.toNat < limit := Word.add_eq_ok_iff.mp h ▸ w.toNat_lt
    simp only [Except.map, reduceCtorEq, false_iff]
    exact fun e => absurd hw (Nat.not_lt.mpr e.2)
  | error g =>
    simp only [Except.map, Except.error.injEq]
    exact ⟨fun e => e ▸ Word.add_eq_error_iff.mp h,
      fun e => (Word.add_eq_error_iff.mp h).1.trans e.1.symm⟩

/-- The round that follows has the number that follows. -/
theorem next_eq_ok_iff {r s : Round} : r.next = .ok s ↔ r.toNat + 1 = s.toNat :=
  plus_eq_ok_iff

/-- Only the last round has none that follows. -/
theorem next_eq_error_iff {r : Round} {f : Fault} :
    r.next = .error f ↔ f = .addOverflow ∧ limit ≤ r.toNat + 1 :=
  plus_eq_error_iff

/-- Every round but the last one has a round that follows. -/
theorem exists_next {r : Round} (h : r.toNat + 1 < limit) : ∃ s, r.next = .ok s := by
  cases hnext : r.next with
  | ok s => exact ⟨s, rfl⟩
  | error f => exact absurd h (Nat.not_lt.mpr (next_eq_error_iff.mp hnext).2)

/-- The rounds below the one that follows are those up to the round itself. -/
theorem lt_next_iff {r s q : Round} (h : r.next = .ok s) : q < s ↔ q ≤ r := by
  rw [lt_def, le_def, ← next_eq_ok_iff.mp h]
  exact Nat.lt_succ_iff

end Round

end CommitPipeline
