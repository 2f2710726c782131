/-!
# Things kept by name
-/

namespace CommitPipeline

/-- Things kept by name, at most one under each. -/
abbrev Named (α : Type) := List (String × α)

namespace Named

variable {α β : Type}

/-- The thing kept under a name. -/
def get? (kept : Named α) (name : String) : Option α :=
  (kept.find? (fun entry => entry.1 = name)).map Prod.snd

/-- Keeps a thing under a name, instead of the one kept there before. -/
def keep (kept : Named α) (name : String) (a : α) : Named α :=
  match kept with
  | [] => [(name, a)]
  | entry :: rest => if entry.1 = name then (name, a) :: rest else entry :: keep rest name a

/-- Keeps a thing if a name for it is given. -/
def keepAs (kept : Named α) (name : Option String) (a : α) : Named α :=
  (name.map (kept.keep · a)).getD kept

/-- Lets go of what is kept under a name. -/
def drop (kept : Named α) (name : String) : Named α :=
  kept.filter (fun entry => entry.1 ≠ name)

/-- Whether something is kept under a name. -/
def has (kept : Named α) (name : String) : Bool := (kept.get? name).isSome

/-- Looks at everything that is kept. -/
def view (kept : Named α) (f : α → β) : Named β := kept.map fun entry => (entry.1, f entry.2)

/-- What is found under a name was kept under it. -/
theorem mem_of_get? {kept : Named α} {name : String} {a : α} (h : kept.get? name = some a) :
    (name, a) ∈ kept := by
  obtain ⟨entry, hfind, rfl⟩ := Option.map_eq_some_iff.mp h
  have hname : entry.1 = name := by simpa using List.find?_some hfind
  exact hname ▸ List.mem_of_find?_eq_some hfind

/-- There is something under a name if it can be got. -/
theorem has_eq_true_iff {kept : Named α} {name : String} :
    kept.has name = true ↔ ∃ a, kept.get? name = some a := Option.isSome_iff_exists

theorem not_has {kept : Named α} {name : String} (h : kept.get? name = none) :
    ¬ kept.has name = true := by simp [has, h]

/-- Keeping a value brings in one entry and no other. -/
theorem mem_keep {kept : Named α} {name : String} {a : α} {entry : String × α}
    (h : entry ∈ kept.keep name a) : entry = (name, a) ∨ entry ∈ kept := by
  induction kept with
  | nil => exact .inl (List.mem_singleton.mp h)
  | cons head rest ih =>
    rw [keep] at h
    split at h
    · exact (List.mem_cons.mp h).imp_right (List.mem_cons_of_mem _)
    · rcases List.mem_cons.mp h with rfl | h
      · exact .inr List.mem_cons_self
      · exact (ih h).imp_right (List.mem_cons_of_mem _)

/-- A value that is kept is found under its name, over the one that was there. -/
theorem get?_keep (kept : Named α) (name other : String) (a : α) :
    (kept.keep name a).get? other = if other = name then some a else kept.get? other := by
  induction kept with
  | nil => by_cases h : name = other <;> simp [keep, get?, h, eq_comm]
  | cons head rest ih =>
    unfold get? at ih ⊢
    rw [keep]
    by_cases hhead : head.1 = name
    · rw [if_pos hhead]
      by_cases h : name = other <;> simp [hhead, h, eq_comm]
    · rw [if_neg hhead, List.find?_cons, List.find?_cons]
      by_cases h : head.1 = other
      · have hother : other ≠ name := h ▸ hhead
        simp [h, hother]
      · simpa [h] using ih

@[simp]
theorem get?_keep_self (kept : Named α) (name : String) (a : α) :
    (kept.keep name a).get? name = some a := by
  rw [get?_keep, if_pos rfl]

/-- Under the other names nothing changes. -/
theorem get?_keep_of_ne (kept : Named α) {name other : String} (h : other ≠ name) (a : α) :
    (kept.keep name a).get? other = kept.get? other := by
  rw [get?_keep, if_neg h]

end Named

end CommitPipeline
