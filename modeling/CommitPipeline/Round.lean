/-!
# Rounds

A ledger counts its blocks by rounds: 64-bit words in their natural order. Everything that is
said about rounds is said through `Round.toNat`. The two subtractions of this module stop at
zero; the operations that can leave the word are in `CommitPipeline.Round.Checked`.
-/

namespace CommitPipeline

/-- The number of a ledger block. -/
structure Round where
  /-- The 64-bit word that holds the number. -/
  val : UInt64
  deriving DecidableEq, Repr, Inhabited

namespace Round

/-- The number of words a round can take. -/
abbrev limit : Nat := UInt64.size

/-- The round as a natural number. -/
def toNat (r : Round) : Nat := r.val.toNat

/-- The round of a number, reduced modulo the word. -/
def ofNat (n : Nat) : Round := ⟨UInt64.ofNat n⟩

/-- The round before the first block. -/
def zero : Round := ⟨0⟩

instance : LE Round := ⟨fun a b => a.toNat ≤ b.toNat⟩

instance : LT Round := ⟨fun a b => a.toNat < b.toNat⟩

instance (a b : Round) : Decidable (a ≤ b) := inferInstanceAs (Decidable (a.toNat ≤ b.toNat))

instance (a b : Round) : Decidable (a < b) := inferInstanceAs (Decidable (a.toNat < b.toNat))

instance : Min Round := ⟨fun a b => if a ≤ b then a else b⟩

instance : Max Round := ⟨fun a b => if a ≤ b then b else a⟩

/-- The order of rounds is that of their numbers. -/
theorem le_def {a b : Round} : a ≤ b ↔ a.toNat ≤ b.toNat := Iff.rfl

theorem lt_def {a b : Round} : a < b ↔ a.toNat < b.toNat := Iff.rfl

/-- Every round is a number of the word. -/
theorem toNat_lt (r : Round) : r.toNat < limit := r.val.toNat_lt

/-- Rounds with the same number are the same. -/
theorem toNat_inj {a b : Round} : a.toNat = b.toNat ↔ a = b := by
  constructor
  · intro h
    cases a; cases b
    exact congrArg Round.mk (UInt64.toNat_inj.mp h)
  · rintro rfl; rfl

/-- To show that two rounds are the same it is enough to look at their numbers. -/
@[ext]
theorem ext_toNat {a b : Round} (h : a.toNat = b.toNat) : a = b := toNat_inj.mp h

@[simp]
theorem toNat_zero : zero.toNat = 0 := rfl

@[simp]
theorem toNat_mk (w : UInt64) : (Round.mk w).toNat = w.toNat := rfl

/-- A number of the word is the number of its round. -/
theorem toNat_ofNat_of_lt {n : Nat} (h : n < limit) : (ofNat n).toNat = n :=
  UInt64.toNat_ofNat_of_lt' h

/-- A round is got back from its number. -/
@[simp]
theorem ofNat_toNat (r : Round) : ofNat r.toNat = r := by
  apply ext_toNat
  exact toNat_ofNat_of_lt r.toNat_lt

/-- The lower of two rounds has the lower number. -/
theorem toNat_min (a b : Round) : (min a b).toNat = min a.toNat b.toNat := by
  show (if a ≤ b then a else b).toNat = _
  by_cases h : a ≤ b
  · rw [if_pos h, Nat.min_eq_left h]
  · rw [if_neg h, Nat.min_eq_right (Nat.le_of_not_le h)]

/-- The higher of two rounds has the higher number. -/
theorem toNat_max (a b : Round) : (max a b).toNat = max a.toNat b.toNat := by
  show (if a ≤ b then b else a).toNat = _
  by_cases h : a ≤ b
  · rw [if_pos h, Nat.max_eq_right h]
  · rw [if_neg h, Nat.max_eq_left (Nat.le_of_not_le h)]

/-- The decimal text of a round. -/
def text (r : Round) : String := toString r.toNat

instance : ToString Round := ⟨text⟩

/-- The round `n` rounds back, stopping at round zero. -/
def back (r : Round) (n : UInt64) : Round :=
  if n ≤ r.val then ⟨r.val - n⟩ else zero

/-- How many rounds lie between `base` and `r`, zero if `r` is not above it. -/
def since (r base : Round) : UInt64 := (r.back base.val).val

/-- Going back stops at zero, as the subtraction of natural numbers does. -/
@[simp]
theorem toNat_back (r : Round) (n : UInt64) : (r.back n).toNat = r.toNat - n.toNat := by
  unfold back
  by_cases h : n ≤ r.val
  · rw [if_pos h]
    exact UInt64.toNat_sub_of_le _ _ h
  · rw [if_neg h, toNat_zero]
    have : r.val.toNat < n.toNat := by
      rw [← UInt64.lt_iff_toNat_lt]
      exact UInt64.not_le.mp h
    exact (Nat.sub_eq_zero_of_le (Nat.le_of_lt this)).symm

/-- The distance from a base, zero if the round is not above it. -/
@[simp]
theorem toNat_since (r base : Round) : (r.since base).toNat = r.toNat - base.toNat :=
  toNat_back r base.val

end Round

end CommitPipeline
