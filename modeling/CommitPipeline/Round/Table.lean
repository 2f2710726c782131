import CommitPipeline.Round

/-!
# Tables keyed by round

A `RoundTable` holds at most one value per round, in ascending order of the rounds. `get?` is its
view: what inserting a row and keeping some of the rows do to a table is said by one equation on
`get?` each, and two tables with the same view are equal.
-/

namespace CommitPipeline

/-- Values by round, in strictly ascending order of the rounds. -/
structure RoundTable (α : Type) where
  /-- The rows, lowest round first. -/
  rows : List (Round × α) := []
  /-- Each row's round is below those of the rows after it. -/
  ascending : rows.Pairwise (fun a b => a.1 < b.1) := by exact List.Pairwise.nil

namespace RoundTable

variable {α : Type}

instance [DecidableEq α] : DecidableEq (RoundTable α) := fun s t =>
  decidable_of_iff (s.rows = t.rows) (by cases s; cases t; simp)

/-- The table without rows. -/
def empty : RoundTable α := {}

instance : Inhabited (RoundTable α) := ⟨empty⟩

/-- The value held for a round. -/
def get? (t : RoundTable α) (r : Round) : Option α :=
  (t.rows.find? (fun row => row.1 = r)).map Prod.snd

/-- The rounds that have a row, lowest first. -/
def rounds (t : RoundTable α) : List Round := t.rows.map Prod.fst

/-- The number of rows. -/
def size (t : RoundTable α) : Nat := t.rows.length

/-- The highest round that has a row. -/
def last? (t : RoundTable α) : Option Round := t.rounds.getLast?

/-- Puts a row into its place in a list of rows, over the row of the same round if there is one. -/
def insertRow (r : Round) (a : α) : List (Round × α) → List (Round × α)
  | [] => [(r, a)]
  | row :: rows =>
    if r < row.1 then (r, a) :: row :: rows
    else if r = row.1 then (r, a) :: rows
    else row :: insertRow r a rows

/-- Inserting brings in one row and no other. -/
theorem mem_insertRow {r : Round} {a : α} {row : Round × α} {rows : List (Round × α)}
    (h : row ∈ insertRow r a rows) : row = (r, a) ∨ row ∈ rows := by
  induction rows with
  | nil => simpa [insertRow] using h
  | cons head rest ih =>
    rw [insertRow] at h
    split at h
    · simpa using h
    · split at h
      · rcases List.mem_cons.mp h with h | h
        · exact .inl h
        · exact .inr (List.mem_cons_of_mem _ h)
      · rcases List.mem_cons.mp h with h | h
        · exact .inr (h ▸ List.mem_cons_self)
        · exact (ih h).imp id (List.mem_cons_of_mem _)

/-- A row is inserted where the rounds stay in strictly ascending order. -/
theorem pairwise_insertRow (r : Round) (a : α) {rows : List (Round × α)}
    (h : rows.Pairwise (fun a b => a.1 < b.1)) :
    (insertRow r a rows).Pairwise (fun a b => a.1 < b.1) := by
  induction rows with
  | nil => simp [insertRow]
  | cons head rest ih =>
    have hhead := (List.pairwise_cons.mp h).1
    have hrest := (List.pairwise_cons.mp h).2
    rw [insertRow]
    split
    · next hlt =>
      refine List.pairwise_cons.mpr ⟨fun row hrow => ?_, h⟩
      rcases List.mem_cons.mp hrow with rfl | hrow
      · exact hlt
      · exact Nat.lt_trans hlt (hhead row hrow)
    · next hnlt =>
      split
      · next heq =>
        refine List.pairwise_cons.mpr ⟨fun row hrow => ?_, hrest⟩
        exact heq ▸ hhead row hrow
      · next hne =>
        refine List.pairwise_cons.mpr ⟨fun row hrow => ?_, ih hrest⟩
        rcases mem_insertRow hrow with rfl | hrow
        · have hle : head.1.toNat ≤ r.toNat := Nat.le_of_not_lt hnlt
          exact Nat.lt_of_le_of_ne hle (fun e => hne (Round.ext_toNat e).symm)
        · exact hhead row hrow

/-- The table with a value for a round, over the value it had. -/
def insert (t : RoundTable α) (r : Round) (a : α) : RoundTable α :=
  ⟨insertRow r a t.rows, pairwise_insertRow r a t.ascending⟩

/-- The rows whose round passes a test. -/
def keep (t : RoundTable α) (p : Round → Bool) : RoundTable α :=
  ⟨t.rows.filter (fun row => p row.1), t.ascending.filter _⟩

/-- The rows at or above a floor. -/
def atLeast (t : RoundTable α) (floor : Round) : RoundTable α := t.keep (fun r => floor ≤ r)

/-- The rows from `lo` to `hi`, both included. -/
def between (t : RoundTable α) (lo hi : Round) : RoundTable α :=
  t.keep (fun r => lo ≤ r && r ≤ hi)

/-- The table without the row of a round. -/
def erase (t : RoundTable α) (r : Round) : RoundTable α := t.keep (fun s => s ≠ r)

/-- The rounds in maximal runs without a gap, each given by its two ends. -/
def runs (t : RoundTable α) : List (Round × Round) :=
  t.rounds.foldr
    (fun r runs =>
      match runs with
      | (lo, hi) :: rest =>
        if r.toNat + 1 = lo.toNat then (r, hi) :: rest else (r, r) :: runs
      | [] => [(r, r)])
    []

/-! ## The view -/

/-- The view shows exactly the rows. -/
theorem get?_eq_some_iff {t : RoundTable α} {r : Round} {a : α} :
    t.get? r = some a ↔ (r, a) ∈ t.rows := by
  obtain ⟨rows, hrows⟩ := t
  unfold get?
  induction rows with
  | nil => simp
  | cons head rest ih =>
    have hhead := (List.pairwise_cons.mp hrows).1
    have ih := ih (List.pairwise_cons.mp hrows).2
    obtain ⟨s, b⟩ := head
    by_cases h : s = r
    · subst h
      simp only [List.find?_cons, decide_true, Option.map_some, Option.some.injEq,
        List.mem_cons, Prod.mk.injEq, true_and]
      constructor
      · rintro rfl; exact .inl rfl
      · rintro (rfl | hmem)
        · rfl
        · exact absurd (hhead _ hmem) (Nat.lt_irrefl _)
    · have hne : ¬ (r, a) = (s, b) := fun e => h (Prod.mk.inj e).1.symm
      simpa [List.find?_cons, h, hne] using ih

@[simp]
theorem get?_empty (r : Round) : (empty : RoundTable α).get? r = none := rfl

/-- Tables with the same view are the same: in ascending order there is one list for it. -/
theorem ext_get? {s t : RoundTable α} (h : ∀ r, s.get? r = t.get? r) : s = t := by
  have hmem : ∀ row, row ∈ s.rows ↔ row ∈ t.rows := by
    rintro ⟨r, a⟩
    rw [← get?_eq_some_iff, ← get?_eq_some_iff, h r]
  obtain ⟨srows, hs⟩ := s
  obtain ⟨trows, ht⟩ := t
  have hrows : srows = trows := by
    clear h
    induction srows generalizing trows with
    | nil =>
      cases trows with
      | nil => rfl
      | cons row _ => exact absurd ((hmem row).mpr List.mem_cons_self) (List.not_mem_nil)
    | cons row rest ih =>
      cases trows with
      | nil => exact absurd ((hmem row).mp List.mem_cons_self) (List.not_mem_nil)
      | cons row' rest' =>
        have hs' := List.pairwise_cons.mp hs
        have ht' := List.pairwise_cons.mp ht
        have hrow : row = row' := by
          rcases List.mem_cons.mp ((hmem row).mp List.mem_cons_self) with e | hin
          · exact e
          · rcases List.mem_cons.mp ((hmem row').mpr List.mem_cons_self) with e | hin'
            · exact e.symm
            · exact absurd (Nat.lt_trans (hs'.1 _ hin') (ht'.1 _ hin)) (Nat.lt_irrefl _)
        subst hrow
        refine congrArg (row :: ·) (ih hs'.2 rest' ht'.2 (fun other => ?_))
        constructor
        · intro hin
          rcases List.mem_cons.mp ((hmem other).mp (List.mem_cons_of_mem _ hin)) with e | h
          · exact absurd (e ▸ hs'.1 _ hin) (Nat.lt_irrefl _)
          · exact h
        · intro hin
          rcases List.mem_cons.mp ((hmem other).mpr (List.mem_cons_of_mem _ hin)) with e | h
          · exact absurd (e ▸ ht'.1 _ hin) (Nat.lt_irrefl _)
          · exact h
  subst hrows
  rfl

/-- A row that is inserted is the one row of its round. -/
theorem get?_insert (t : RoundTable α) (r s : Round) (a : α) :
    (t.insert r a).get? s = if s = r then some a else t.get? s := by
  obtain ⟨rows, hrows⟩ := t
  unfold insert get?
  simp only
  clear hrows
  induction rows with
  | nil =>
    by_cases h : s = r
    · simp [insertRow, h]
    · simp [insertRow, h, Ne.symm h]
  | cons head rest ih =>
    obtain ⟨k, b⟩ := head
    rw [insertRow]
    split
    · by_cases h : s = r
      · simp [h]
      · simp [List.find?_cons, h, Ne.symm h]
    · split
      · next hk =>
        simp only at hk
        subst hk
        by_cases h : s = r
        · simp [h]
        · simp [h, Ne.symm h]
      · next hk =>
        simp only at hk
        by_cases hks : k = s
        · subst hks
          simp [Ne.symm hk]
        · simpa [List.find?_cons, hks] using ih

/-- The rows that are kept are those whose round passes the test. -/
@[simp]
theorem get?_keep (t : RoundTable α) (p : Round → Bool) (r : Round) :
    (t.keep p).get? r = if p r then t.get? r else none := by
  apply Option.ext
  intro a
  rw [get?_eq_some_iff]
  by_cases h : p r
  · simp [keep, h, get?_eq_some_iff]
  · simp [keep, h]

/-- Rows below the floor are gone. -/
theorem get?_atLeast (t : RoundTable α) (floor r : Round) :
    (t.atLeast floor).get? r = if floor ≤ r then t.get? r else none := by
  simp [atLeast]

/-- Rows outside of the two ends are gone. -/
theorem get?_between (t : RoundTable α) (lo hi r : Round) :
    (t.between lo hi).get? r = if lo ≤ r ∧ r ≤ hi then t.get? r else none := by
  simp [between]

/-- A table has the rounds at which its view shows something. -/
theorem mem_rounds_iff {t : RoundTable α} {r : Round} : r ∈ t.rounds ↔ ∃ a, t.get? r = some a := by
  simp only [rounds, List.mem_map, get?_eq_some_iff, Prod.exists, exists_and_right, exists_eq_right]

/-- No round stands twice in a table. -/
theorem nodup_rounds (t : RoundTable α) : t.rounds.Nodup := by
  rw [rounds, List.Nodup, List.pairwise_map]
  refine t.ascending.imp fun hlt heq => ?_
  exact Nat.lt_irrefl _ (heq ▸ hlt)

end RoundTable

end CommitPipeline
