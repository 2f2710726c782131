import CommitPipeline.Tracker
import Mathlib.Data.List.Forall2

/-!
# What a sweep keeps

A sweep puts one question to trackers in order and stops at the first that stops. This module
carries what holds of a single answer over to the whole sweep:

* `sweep_forall` — a property of trackers and one of the context that every answer keeps;
* `sweep_context` — a property of the context alone, given what is known of unasked trackers;
* `sweep_forall₂` — a relation between a tracker before and after its answer;
* `sweep_forall_of_ok`, `sweep_forall₂_of_ok` — the same for what every tracker has after it
  answered, if the sweep ran to its end;
* `sweep_error_of_forall` — what a sweep may stop with;
* `sweep_of_forall_ok` — a sweep that nobody stops runs to its end;
* `sweep_exists` — what one of the trackers has until the context has it;
* `sweep_append_of_ok`, `sweep_append_of_error` — a sweep over some trackers and then the others;
* `exists_of_sweep_ok`, `exists_of_sweep_error` — the steps of a sweep to its end around one of the
  trackers, and those of a sweep that is stopped;
* `sweep_around_of_ok`, `sweep_around_of_error` — a sweep in which one tracker does everything.
-/

namespace CommitPipeline

@[simp]
theorem Effects.signals_logIf (fx : Effects) (condition : Bool) (e : Event) :
    (fx.logIf condition e).signals = fx.signals := by
  cases condition <;> rfl

variable {τ κ ε : Type} {ask : Act ε (τ × κ) Unit}

/-- A sweep ends at a tracker that stops. -/
theorem sweep_cons_of_error {t t' : τ} {c c' : κ} {e : ε} (rest : List τ)
    (h : ask (t, c) = (.error e, t', c')) :
    sweep ask (t :: rest) c = (.error e, t' :: rest, c') := by
  rw [sweep, h]

/-- A sweep goes on behind a tracker that answers. -/
theorem sweep_cons_of_ok {t t' : τ} {c c' : κ} (rest : List τ)
    (h : ask (t, c) = (.ok (), t', c')) :
    sweep ask (t :: rest) c =
      ((sweep ask rest c').1, t' :: (sweep ask rest c').2.1, (sweep ask rest c').2.2) := by
  rw [sweep, h]

/-- What every answer keeps, of the tracker that gives it and of the context, the sweep keeps. -/
theorem sweep_forall {G : τ → Prop} {I : κ → Prop}
    (hask : ∀ t c, G t → I c → G (ask (t, c)).2.1 ∧ I (ask (t, c)).2.2)
    (trackers : List τ) {c : κ} (htrackers : ∀ t ∈ trackers, G t) (hc : I c) :
    (∀ t ∈ (sweep ask trackers c).2.1, G t) ∧ I (sweep ask trackers c).2.2 := by
  -- By induction on the trackers still to be asked; the context carries `I` from each to the next.
  induction trackers generalizing c with
  | nil => exact ⟨htrackers, hc⟩
  | cons t rest ih =>
    obtain ⟨ht, hrest⟩ := List.forall_mem_cons.mp htrackers
    have hanswer := hask t c ht hc
    rcases h : ask (t, c) with ⟨_ | _, t', c'⟩ <;> rw [h] at hanswer
    · rw [sweep_cons_of_error rest h]
      exact ⟨List.forall_mem_cons.mpr ⟨hanswer.1, hrest⟩, hanswer.2⟩
    · rw [sweep_cons_of_ok rest h]
      have hlater := ih hrest hanswer.2
      exact ⟨List.forall_mem_cons.mpr ⟨hanswer.1, hlater.1⟩, hlater.2⟩

/-- What every answer keeps of the context, given what is known of the tracker before it is asked,
the sweep keeps. -/
theorem sweep_context {G : τ → Prop} {I : κ → Prop}
    (hask : ∀ t c, G t → I c → I (ask (t, c)).2.2) (trackers : List τ) {c : κ}
    (htrackers : ∀ t ∈ trackers, G t) (hc : I c) : I (sweep ask trackers c).2.2 := by
  induction trackers generalizing c with
  | nil => exact hc
  | cons t rest ih =>
    obtain ⟨ht, hrest⟩ := List.forall_mem_cons.mp htrackers
    have hanswer := hask t c ht hc
    rcases h : ask (t, c) with ⟨_ | _, t', c'⟩ <;> rw [h] at hanswer
    · rw [sweep_cons_of_error rest h]
      exact hanswer
    · rw [sweep_cons_of_ok rest h]
      exact ih hrest hanswer

/-- A reflexive relation that every tracker has to itself after its answer holds, tracker by
tracker, over the sweep. -/
theorem sweep_forall₂ {R : τ → τ → Prop} {I : κ → Prop} (hrefl : ∀ t, R t t)
    (hask : ∀ t c, I c → R t (ask (t, c)).2.1 ∧ I (ask (t, c)).2.2)
    (trackers : List τ) {c : κ} (hc : I c) :
    List.Forall₂ R trackers (sweep ask trackers c).2.1 ∧ I (sweep ask trackers c).2.2 := by
  induction trackers generalizing c with
  | nil => exact ⟨.nil, hc⟩
  | cons t rest ih =>
    have hanswer := hask t c hc
    rcases h : ask (t, c) with ⟨_ | _, t', c'⟩ <;> rw [h] at hanswer
    -- Behind a tracker that stopped nobody was asked, and there the relation is reflexive.
    · rw [sweep_cons_of_error rest h]
      exact ⟨.cons hanswer.1 (List.forall₂_same.mpr fun t _ => hrefl t), hanswer.2⟩
    · rw [sweep_cons_of_ok rest h]
      have hlater := ih hanswer.2
      exact ⟨.cons hanswer.1 hlater.1, hlater.2⟩

/-- After a sweep that ran to its end every tracker has what its answer gave it. -/
theorem sweep_forall_of_ok {G H : τ → Prop} {I : κ → Prop}
    (hask : ∀ t c, G t → I c → (ask (t, c)).1 = .ok () →
      H (ask (t, c)).2.1 ∧ I (ask (t, c)).2.2)
    (trackers : List τ) {c : κ} (htrackers : ∀ t ∈ trackers, G t) (hc : I c)
    (hok : (sweep ask trackers c).1 = .ok ()) :
    (∀ t ∈ (sweep ask trackers c).2.1, H t) ∧ I (sweep ask trackers c).2.2 := by
  induction trackers generalizing c with
  | nil => exact ⟨fun t ht => absurd ht List.not_mem_nil, hc⟩
  | cons t rest ih =>
    obtain ⟨ht, hrest⟩ := List.forall_mem_cons.mp htrackers
    have hanswer := hask t c ht hc
    rcases h : ask (t, c) with ⟨_ | _, t', c'⟩ <;> rw [h] at hanswer
    · rw [sweep_cons_of_error rest h] at hok
      cases hok
    · rw [sweep_cons_of_ok rest h] at hok ⊢
      have hanswer := hanswer rfl
      have hlater := ih hrest hanswer.2 hok
      exact ⟨List.forall_mem_cons.mpr ⟨hanswer.1, hlater.1⟩, hlater.2⟩

/-- After a sweep that ran to its end every tracker stands to what it was as its answer has it. -/
theorem sweep_forall₂_of_ok {R : τ → τ → Prop} {I : κ → Prop}
    (hask : ∀ t c, I c → (ask (t, c)).1 = .ok () → R t (ask (t, c)).2.1 ∧ I (ask (t, c)).2.2)
    (trackers : List τ) {c : κ} (hc : I c) (hok : (sweep ask trackers c).1 = .ok ()) :
    List.Forall₂ R trackers (sweep ask trackers c).2.1 ∧ I (sweep ask trackers c).2.2 := by
  induction trackers generalizing c with
  | nil => exact ⟨.nil, hc⟩
  | cons t rest ih =>
    have hanswer := hask t c hc
    rcases h : ask (t, c) with ⟨_ | _, t', c'⟩ <;> rw [h] at hanswer
    · rw [sweep_cons_of_error rest h] at hok
      cases hok
    · rw [sweep_cons_of_ok rest h] at hok ⊢
      obtain ⟨hrelated, hcontext⟩ := hanswer rfl
      have hlater := ih hcontext hok
      exact ⟨.cons hrelated hlater.1, hlater.2⟩

/-- A sweep that stops does so as one of the answers did. -/
theorem sweep_error_of_forall {E : ε → Prop} {I : κ → Prop}
    (hask : ∀ t c, I c → (∀ e, (ask (t, c)).1 = .error e → E e) ∧ I (ask (t, c)).2.2)
    (trackers : List τ) {c : κ} (hc : I c) : ∀ e, (sweep ask trackers c).1 = .error e → E e := by
  induction trackers generalizing c with
  | nil =>
    intro e he
    cases he
  | cons t rest ih =>
    obtain ⟨hstop, hcontext⟩ := hask t c hc
    rcases h : ask (t, c) with ⟨e | _, t', c'⟩ <;> rw [h] at hstop hcontext
    · rw [sweep_cons_of_error rest h]
      exact hstop
    · rw [sweep_cons_of_ok rest h]
      exact ih hcontext

/-- If every tracker answers, whatever those before it made of the context, the sweep runs to its
end and every tracker has what its answer gave it. -/
theorem sweep_of_forall_ok {G H : τ → Prop}
    (hask : ∀ t c, G t → (ask (t, c)).1 = .ok () ∧ H (ask (t, c)).2.1) (trackers : List τ) (c : κ)
    (htrackers : ∀ t ∈ trackers, G t) :
    (sweep ask trackers c).1 = .ok () ∧ ∀ t ∈ (sweep ask trackers c).2.1, H t := by
  induction trackers generalizing c with
  | nil => exact ⟨rfl, fun t ht => absurd ht List.not_mem_nil⟩
  | cons t rest ih =>
    obtain ⟨ht, hrest⟩ := List.forall_mem_cons.mp htrackers
    obtain ⟨hok, hanswer⟩ := hask t c ht
    rcases h : ask (t, c) with ⟨_ | _, t', c'⟩ <;> rw [h] at hok hanswer
    · exact nomatch hok
    · rw [sweep_cons_of_ok rest h]
      obtain ⟨hlater, hanswers⟩ := ih c' hrest
      exact ⟨hlater, List.forall_mem_cons.mpr ⟨hanswer, hanswers⟩⟩

/-- Some tracker has a property or the context has one, and who gives the first up brings the second
about. So one of the two is there after the sweep as well. -/
theorem sweep_exists {G : τ → Prop} {I : κ → Prop}
    (htracker : ∀ t c, G t → G (ask (t, c)).2.1 ∨ I (ask (t, c)).2.2)
    (hcontext : ∀ t c, I c → I (ask (t, c)).2.2) (trackers : List τ) {c : κ}
    (h : (∃ t ∈ trackers, G t) ∨ I c) :
    (∃ t ∈ (sweep ask trackers c).2.1, G t) ∨ I (sweep ask trackers c).2.2 := by
  induction trackers generalizing c with
  | nil => exact h
  | cons t rest ih =>
    -- Either the property is with the trackers still to be asked or with the context, or it is with
    -- the head, which keeps it unless its answer brings the other one about.
    have hanswer : G (ask (t, c)).2.1 ∨ (∃ t ∈ rest, G t) ∨ I (ask (t, c)).2.2 := by
      obtain ⟨u, hu, hG⟩ | hI := h
      · rcases List.mem_cons.mp hu with rfl | hu
        · exact (htracker u c hG).imp_right .inr
        · exact .inr (.inl ⟨u, hu, hG⟩)
      · exact .inr (.inr (hcontext t c hI))
    rcases hask : ask (t, c) with ⟨_ | _, t', c'⟩ <;> rw [hask] at hanswer
    · rw [sweep_cons_of_error rest hask]
      rcases hanswer with hG | ⟨u, hu, hG⟩ | hI
      · exact .inl ⟨t', List.mem_cons_self, hG⟩
      · exact .inl ⟨u, List.mem_cons_of_mem _ hu, hG⟩
      · exact .inr hI
    · rw [sweep_cons_of_ok rest hask]
      rcases hanswer with hG | hrest
      · exact .inl ⟨t', List.mem_cons_self, hG⟩
      · refine (ih hrest).imp_left ?_
        rintro ⟨u, hu, hG⟩
        exact ⟨u, List.mem_cons_of_mem _ hu, hG⟩

/-! ## Some trackers and then the others -/

/-- A sweep that ends among the first trackers does not come to the others. -/
theorem sweep_append_of_error {before before' : List τ} {c c' : κ} {e : ε} (rest : List τ)
    (h : sweep ask before c = (.error e, before', c')) :
    sweep ask (before ++ rest) c = (.error e, before' ++ rest, c') := by
  induction before generalizing c before' with
  | nil => cases h
  | cons t before ih =>
    rw [List.cons_append]
    rcases hask : ask (t, c) with ⟨e' | _, t', c₁⟩
    · rw [sweep_cons_of_error before hask] at h
      obtain ⟨rfl, rfl, rfl⟩ := Prod.mk.inj h |>.imp Except.error.inj Prod.mk.inj
      exact sweep_cons_of_error (before ++ rest) hask
    · rw [sweep_cons_of_ok before hask] at h
      obtain ⟨herror, rfl, rfl⟩ := Prod.mk.inj h |>.imp_right Prod.mk.inj
      rw [sweep_cons_of_ok (before ++ rest) hask, ih (Prod.ext herror rfl), List.cons_append]

/-- A sweep goes on behind trackers that all answer. -/
theorem sweep_append_of_ok {before before' : List τ} {c c' : κ} (rest : List τ)
    (h : sweep ask before c = (.ok (), before', c')) :
    sweep ask (before ++ rest) c =
      ((sweep ask rest c').1, before' ++ (sweep ask rest c').2.1, (sweep ask rest c').2.2) := by
  induction before generalizing c before' with
  | nil =>
    cases h
    rfl
  | cons t before ih =>
    rw [List.cons_append]
    rcases hask : ask (t, c) with ⟨e' | _, t', c₁⟩
    · rw [sweep_cons_of_error before hask] at h
      cases h
    · rw [sweep_cons_of_ok before hask] at h
      obtain ⟨hok, rfl, rfl⟩ := Prod.mk.inj h |>.imp_right Prod.mk.inj
      rw [sweep_cons_of_ok (before ++ rest) hask, ih (Prod.ext hok rfl), List.cons_append]

/-- A sweep that runs to its end has three parts around any of its trackers: the answers of those
before it, its own answer, and the answers of those after it. -/
theorem exists_of_sweep_ok {before after answered : List τ} {t : τ} {c c' : κ}
    (h : sweep ask (before ++ t :: after) c = (.ok (), answered, c')) :
    ∃ before' c₁ t' c₂ after', sweep ask before c = (.ok (), before', c₁) ∧
      ask (t, c₁) = (.ok (), t', c₂) ∧ sweep ask after c₂ = (.ok (), after', c') ∧
      answered = before' ++ t' :: after' := by
  rcases hbefore : sweep ask before c with ⟨e | _, before', c₁⟩
  · rw [sweep_append_of_error _ hbefore] at h
    cases h
  rw [sweep_append_of_ok _ hbefore] at h
  rcases hask : ask (t, c₁) with ⟨e | _, t', c₂⟩
  · rw [sweep_cons_of_error after hask] at h
    cases h
  rw [sweep_cons_of_ok after hask] at h
  obtain ⟨hok, rfl, rfl⟩ := Prod.mk.inj h |>.imp_right Prod.mk.inj
  exact ⟨before', c₁, t', c₂, _, rfl, hask, Prod.ext hok rfl, rfl⟩

/-- A sweep that is stopped has two parts around the tracker that stops it: those before it answer,
and those after it are not asked. -/
theorem exists_of_sweep_error {trackers answered : List τ} {c c' : κ} {e : ε}
    (h : sweep ask trackers c = (.error e, answered, c')) :
    ∃ before t after before' c₁ t', trackers = before ++ t :: after ∧
      sweep ask before c = (.ok (), before', c₁) ∧ ask (t, c₁) = (.error e, t', c') ∧
      answered = before' ++ t' :: after := by
  induction trackers generalizing c answered with
  | nil => cases h
  | cons t rest ih =>
    rcases hask : ask (t, c) with ⟨e' | _, t', c₁⟩
    · rw [sweep_cons_of_error rest hask] at h
      obtain ⟨rfl, rfl, rfl⟩ := Prod.mk.inj h |>.imp Except.error.inj Prod.mk.inj
      exact ⟨[], t, rest, [], c, t', rfl, rfl, hask, rfl⟩
    · rw [sweep_cons_of_ok rest hask] at h
      obtain ⟨herror, rfl, rfl⟩ := Prod.mk.inj h |>.imp_right Prod.mk.inj
      obtain ⟨before, u, after, before', c₂, u', rfl, hbefore, hstops, hanswered⟩ :=
        ih (Prod.ext herror rfl)
      refine ⟨t :: before, u, after, t' :: before', c₂, u', rfl, ?_, hstops, ?_⟩
      · rw [sweep_cons_of_ok before hask, hbefore]
      · rw [hanswered, List.cons_append]

/-! ## Trackers that do nothing -/

variable {I : κ → Prop} {c c' : κ}

/-- A sweep over trackers that answer without doing anything does nothing. -/
theorem sweep_of_idle (trackers : List τ)
    (hidle : ∀ t ∈ trackers, ∀ c, I c → ask (t, c) = (.ok (), t, c)) (hc : I c) :
    sweep ask trackers c = (.ok (), trackers, c) := by
  induction trackers with
  | nil => rfl
  | cons t rest ih =>
    obtain ⟨ht, hrest⟩ := List.forall_mem_cons.mp hidle
    rw [sweep_cons_of_ok rest (ht c hc), ih hrest]

/-- A sweep goes on behind trackers that do nothing. -/
theorem sweep_append_of_idle {before : List τ} (rest : List τ)
    (hidle : ∀ t ∈ before, ∀ c, I c → ask (t, c) = (.ok (), t, c)) (hc : I c) :
    sweep ask (before ++ rest) c =
      ((sweep ask rest c).1, before ++ (sweep ask rest c).2.1, (sweep ask rest c).2.2) :=
  sweep_append_of_ok rest (sweep_of_idle before hidle hc)

/-- Among trackers that do nothing, a sweep is what one tracker does if that tracker answers. -/
theorem sweep_around_of_ok {before after : List τ} {t t' : τ}
    (hidle : ∀ t ∈ before ++ after, ∀ c, I c → ask (t, c) = (.ok (), t, c)) (hc : I c) (hc' : I c')
    (h : ask (t, c) = (.ok (), t', c')) :
    sweep ask (before ++ t :: after) c = (.ok (), before ++ t' :: after, c') := by
  obtain ⟨hbefore, hafter⟩ := List.forall_mem_append.mp hidle
  rw [sweep_append_of_idle _ hbefore hc, sweep_cons_of_ok after h,
    sweep_of_idle after hafter hc']

/-- Among trackers that do nothing, a sweep ends with the tracker that stops. -/
theorem sweep_around_of_error {before after : List τ} {t t' : τ} {e : ε}
    (hidle : ∀ t ∈ before ++ after, ∀ c, I c → ask (t, c) = (.ok (), t, c)) (hc : I c)
    (h : ask (t, c) = (.error e, t', c')) :
    sweep ask (before ++ t :: after) c = (.error e, before ++ t' :: after, c') := by
  rw [sweep_append_of_idle _ (List.forall_mem_append.mp hidle).1 hc, sweep_cons_of_error after h]

end CommitPipeline
