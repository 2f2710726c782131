import CommitPipeline.Scenario.Data
import Mathlib.Data.List.Induction

/-!
# The surviving history of a store

The steps on a store leave a history behind: the changes of its committed transactions, in order.
What the store holds and what any step on it is answered can be read off the history alone. A
round has a row if the history puts one and does not prune above the round afterwards, and the
durable round is the one that was set last. Inside a transaction the history goes on with the
changes that the transaction has made so far.

The module introduces:

* `Change`, `Store.replay` — what a step of a transaction changes, and changes one after the other;
* `TxItem.carried`, `TxItem.changes`, `TxEnd.commits` — what becomes of a transaction;
* `DataStep.history` — the changes of the committed transactions;
* `Change.Stays`, `Change.Survives`, `Change.lastRound` — what a history leaves behind;
* `Query.Reads`, `TxStep.Reads`, `DataStep.Reads` — the answers that a history has for a step;
* `surviving_history` — stores and answers over every list of steps.
-/

namespace CommitPipeline

/-- A change of a store. -/
inductive Change where
  /-- A row is written. -/
  | put (table : TableName) (round : Round) (value : Bytes)
  /-- The rows below a floor are deleted. -/
  | prune (table : TableName) (floor : Round)
  /-- The durable round is set. -/
  | setRound (round : Round)

namespace Change

/-- The store after a change. -/
def apply (s : Store) : Change → Store
  | put t r v => s.put t r v
  | prune t floor => (s.pruneBelow t floor).2
  | setRound r => s.setRound r

/-- Whether a change is one of a table. -/
def concerns (t : TableName) : Change → Bool
  | put t' _ _ | prune t' _ => t' = t
  | setRound _ => false

/-- The durable round that a change sets. -/
def round? : Change → Option Round
  | setRound r => some r
  | put .. | prune .. => none

/-- The history puts a row, and prunes nothing above its round afterwards. -/
def Stays (h : List Change) (t : TableName) (r : Round) : Prop :=
  ∃ before v after, h = before ++ .put t r v :: after ∧ ∀ floor, .prune t floor ∈ after → floor ≤ r

/-- The value of the last put of a row that the history does not prune afterwards. -/
def Survives (h : List Change) (t : TableName) (r : Round) (v : Bytes) : Prop :=
  ∃ before after, h = before ++ .put t r v :: after ∧
    (∀ floor, .prune t floor ∈ after → floor ≤ r) ∧ ∀ w, .put t r w ∉ after

/-- The durable round that was set last. -/
def lastRound (h : List Change) : Round := (h.filterMap round?).getLast?.getD .zero

end Change

/-- The store after changes. -/
def Store.replay (s : Store) (h : List Change) : Store := h.foldl Change.apply s

/-! ## What becomes of a transaction -/

/-- The table that a reading step asks for. -/
def Query.table? : Query → Option String
  | round => none
  | get t _ | rows t _ _ => some t

/-- The table that a step of a transaction asks for. -/
def TxStep.table? : TxStep → Option String
  | setRound _ | round => none
  | put t _ _ | get t _ | prune t _ => some t

/-- The change that a step of a transaction makes. -/
def TxStep.change? : TxStep → Option Change
  | setRound r => some (.setRound r)
  | put t r v => (TableName.ofString t).toOption.map fun t => .put t r v
  | prune t floor => (TableName.ofString t).toOption.map fun t => .prune t floor
  | round | get .. => none

namespace TxItem

/-- The table that a step in the list of a transaction asks for. -/
def table? : TxItem → Option String
  | inside step _ => step.table?
  | outside q => q.table?

/-- The change that a step in the list of a transaction makes. -/
def change? : TxItem → Option Change
  | inside step _ => step.change?
  | outside _ => none

/-- A step that is refused and not tolerated ends the list. -/
def ends : TxItem → Bool
  | inside step tolerated => !tolerated && step.table? = some metaTable
  | outside _ => false

/-- The steps that are carried out, the one that ends them included. -/
def carried : List TxItem → List TxItem
  | [] => []
  | item :: rest => if item.ends then [item] else item :: carried rest

/-- The changes that the steps of a transaction make. -/
def changes (items : List TxItem) : List Change := (carried items).filterMap change?

/-- Whether the steps of a transaction come upon an empty table name, which is a fault. -/
def faults (items : List TxItem) : Bool := (carried items).any fun item => item.table? = some ""

/-- The table whose refusal ended the steps of a transaction. -/
def refused (items : List TxItem) : Option String :=
  if (carried items).any ends then some metaTable else none

end TxItem

/-- Whether a transaction with these steps is committed by such an end: by a commit, or because
its work ended well. -/
def TxEnd.commits (e : TxEnd) (items : List TxItem) : Bool :=
  !TxItem.faults items && (e = .commit || e = .ok && !(TxItem.carried items).any TxItem.ends)

namespace DataStep

/-- The changes that a step commits. -/
def committed : DataStep → List Change
  | query _ => []
  | transaction items finish => if finish.commits items then TxItem.changes items else []

/-- The changes that steps commit, in order. -/
def history (steps : List DataStep) : List Change := steps.flatMap committed

/-- The store that steps leave. -/
def runAll (s : Store) (steps : List DataStep) : Store :=
  steps.foldl (fun s step => (step.run s).2) s

end DataStep

/-! ## What a history answers -/

/-- The answer that a history has for a reading step. -/
inductive Query.Reads (h : List Change) : Query → Answer → Prop
  | round : Reads h .round (.round (Change.lastRound h))
  | row {text : String} {t : TableName} {r : Round} {v : Bytes} :
      TableName.ofString text = .ok t → Change.Survives h t r v → Reads h (.get text r) (.bytes v)
  | noRow {text : String} {t : TableName} {r : Round} :
      TableName.ofString text = .ok t → ¬ Change.Stays h t r → Reads h (.get text r) .nothing
  | rows {text : String} {t : TableName} {lo hi : Round} {rows : List (Round × Bytes)} :
      TableName.ofString text = .ok t → rows.Pairwise (fun a b => a.1 < b.1) →
      (∀ r v, (r, v) ∈ rows ↔ (lo ≤ r ∧ r ≤ hi) ∧ Change.Survives h t r v) →
      Reads h (.rows text lo hi) (.rows rows)
  | refused {q : Query} {text : String} {refusal : TableRefusal} :
      q.table? = some text → TableName.ofString text = .error refusal →
      Reads h q (.refusedTable refusal)

/-- The answer that a history has for a step of a transaction, which has made the last changes of
the history itself. -/
inductive TxStep.Reads (h : List Change) : TxStep → Answer → Prop
  | setRound {r : Round} : Reads h (.setRound r) .nothing
  | round : Reads h .round (.round (Change.lastRound h))
  | put {text : String} {t : TableName} {r : Round} {v : Bytes} :
      TableName.ofString text = .ok t → Reads h (.put text r v) .nothing
  | row {text : String} {t : TableName} {r : Round} {v : Bytes} :
      TableName.ofString text = .ok t → Change.Survives h t r v → Reads h (.get text r) (.bytes v)
  | noRow {text : String} {t : TableName} {r : Round} :
      TableName.ofString text = .ok t → ¬ Change.Stays h t r → Reads h (.get text r) .nothing
  | pruned {text : String} {t : TableName} {floor : Round} {gone : List Round} :
      TableName.ofString text = .ok t → gone.Nodup →
      (∀ r, r ∈ gone ↔ r < floor ∧ Change.Stays h t r) →
      Reads h (.prune text floor) (.number gone.length)
  | refused {step : TxStep} {text : String} {refusal : TableRefusal} :
      step.table? = some text → TableName.ofString text = .error refusal →
      Reads h step (.refusedTable refusal)

/-- The answer to a step in the list of a transaction: from the committed history if it looks at
the store from outside, from the one that the transaction goes on with if it does not. -/
def TxItem.Reads (h own : List Change) : TxItem → Answer → Prop
  | outside q, a => q.Reads h a
  | inside step _, a => step.Reads (h ++ own) a

/-- The answer that a history has for a step on a store. Each step of a transaction sees the
changes of the steps before it. -/
def DataStep.Reads (h : List Change) : DataStep → Answer → Prop
  | query q, a => q.Reads h a
  | transaction items finish, a =>
    if TxItem.faults items then a = .fault .unnamedTable
    else ∃ answers, a = .transaction answers (finish.finish (TxItem.refused items)).1 ∧
      answers.length = (TxItem.carried items).length ∧
      ∀ i (item : TxItem) answer, items[i]? = some item → answers[i]? = some answer →
        item.Reads h (TxItem.changes (items.take i)) answer

/-! ## Stores and their histories -/

namespace Change

variable {h : List Change} {c : Change} {t : TableName} {r : Round} {v : Bytes} {s : Store}

/-- A change that leaves the row of a round alone. -/
def Spares (t : TableName) (r : Round) : Change → Prop
  | put t' r' _ => ¬ (t = t' ∧ r = r')
  | prune t' floor => ¬ (t = t' ∧ r < floor)
  | setRound _ => True

theorem spares_prune {floor : Round} (hc : (prune t floor).Spares t r) : floor ≤ r :=
  Nat.le_of_not_lt fun hlt => hc ⟨rfl, hlt⟩

/-- A change gives a row its value, or it spares the row and the value was there before. -/
theorem get?_apply_eq_some_iff :
    (apply s c).get? t r = some v ↔ c = put t r v ∨ c.Spares t r ∧ s.get? t r = some v := by
  cases c with
  | put t' r' w =>
    rw [apply, Store.get?_put]
    by_cases hrow : t = t' ∧ r = r'
    · obtain ⟨rfl, rfl⟩ := hrow
      simp [Spares]
    · have hne : put t' r' w ≠ put t r v := by
        rintro ⟨⟩
        exact hrow ⟨rfl, rfl⟩
      simp only [if_neg hrow, hne, Spares, false_or]
      exact ⟨fun hget => ⟨hrow, hget⟩, fun hget => hget.2⟩
  | prune t' floor =>
    rw [apply, Store.get?_pruneBelow]
    by_cases hrow : t = t' ∧ r < floor <;> simp [Spares, hrow]
  | setRound r' => simp [apply, Spares, Store.get?]

theorem not_survives_nil : ¬ Survives [] t r v := by
  rintro ⟨before, after, heq, -⟩
  simp at heq

/-- What the last change of a history does to a row that survives. -/
theorem survives_concat :
    Survives (h ++ [c]) t r v ↔ c = put t r v ∨ c.Spares t r ∧ Survives h t r v := by
  constructor
  · rintro ⟨before, after, heq, hprune, hput⟩
    -- The put that survives is the last change, or the last change stands behind it.
    rcases List.eq_nil_or_concat after with rfl | ⟨after, last, rfl⟩
    · exact .inl (List.append_inj_right' heq rfl |> List.head_eq_of_cons_eq)
    · rw [List.concat_eq_append] at heq hprune hput
      rw [← List.cons_append, ← List.append_assoc] at heq
      obtain ⟨rfl, hlast⟩ := List.append_inj' heq rfl
      obtain rfl : c = last := List.head_eq_of_cons_eq hlast
      refine .inr ⟨?_, before, after, rfl, fun floor hmem => hprune floor (by simp [hmem]),
        fun w hmem => hput w (by simp [hmem])⟩
      cases c with
      | put t' r' w =>
        rintro ⟨rfl, rfl⟩
        exact hput w (by simp)
      | prune t' floor =>
        rintro ⟨rfl, hlt⟩
        exact Nat.not_lt_of_le (hprune floor (by simp)) hlt
      | setRound r' => trivial
  · rintro (rfl | ⟨hspares, before, after, rfl, hprune, hput⟩)
    · exact ⟨h, [], rfl, by simp, by simp⟩
    · refine ⟨before, after ++ [c], by simp, fun floor hmem => ?_, fun w hmem => ?_⟩
      · rcases List.mem_append.mp hmem with hmem | hmem
        · exact hprune floor hmem
        · obtain rfl := List.mem_singleton.mp hmem
          exact spares_prune hspares
      · rcases List.mem_append.mp hmem with hmem | hmem
        · exact hput w hmem
        · obtain rfl := List.mem_singleton.mp hmem
          exact hspares ⟨rfl, rfl⟩

/-- A row stays exactly if one of the values it was given survives. -/
theorem stays_iff_survives : Stays h t r ↔ ∃ v, Survives h t r v := by
  constructor
  · rintro ⟨before, v, after, rfl, hprune⟩
    -- The last put of the row is this one or one after it.
    induction after using List.reverseRecOn generalizing v with
    | nil => exact ⟨v, before, [], rfl, hprune, by simp⟩
    | append_singleton after c ih =>
      obtain ⟨w, hw⟩ := ih v fun floor hmem => hprune floor (by simp [hmem])
      rw [← List.cons_append, ← List.append_assoc]
      by_cases hspares : c.Spares t r
      · exact ⟨w, survives_concat.mpr (.inr ⟨hspares, hw⟩)⟩
      · cases c with
        | put t' r' w' =>
          obtain ⟨rfl, rfl⟩ := Classical.not_not.mp hspares
          exact ⟨w', survives_concat.mpr (.inl rfl)⟩
        | prune t' floor =>
          obtain ⟨rfl, hlt⟩ := Classical.not_not.mp hspares
          exact absurd hlt (Nat.not_lt_of_le (hprune floor (by simp)))
        | setRound r' => exact absurd trivial hspares
  · rintro ⟨v, before, after, rfl, hprune, -⟩
    exact ⟨before, v, after, rfl, hprune⟩

/-- The last change decides on the durable round if it sets one. -/
theorem lastRound_concat : lastRound (h ++ [c]) = c.round?.getD (lastRound h) := by
  cases c <;> simp [lastRound, round?]

end Change

namespace Store

variable {h : List Change} {t : TableName} {r : Round} {v : Bytes}

theorem replay_append (s : Store) (h h' : List Change) :
    s.replay (h ++ h') = (s.replay h).replay h' := List.foldl_append

/-- The store that a history leaves has the rows that survive it, by induction from the last change
on. -/
theorem get?_replay_eq_some_iff :
    (empty.replay h).get? t r = some v ↔ Change.Survives h t r v := by
  -- By induction from the last change on, which decides what it does not spare.
  induction h using List.reverseRecOn with
  | nil =>
    refine ⟨fun hget => ?_, fun hs => absurd hs Change.not_survives_nil⟩
    simp [replay, get?] at hget
  | append_singleton h c ih =>
    rw [replay_append, Change.survives_concat, ← ih]
    exact Change.get?_apply_eq_some_iff

/-- It has a row wherever the history puts one that stays. -/
theorem isSome_get?_replay_iff : ((empty.replay h).get? t r).isSome ↔ Change.Stays h t r := by
  rw [Change.stays_iff_survives, Option.isSome_iff_exists]
  exact exists_congr fun v => get?_replay_eq_some_iff

/-- Its durable round is the one that the history set last. -/
theorem round_replay : (empty.replay h).round = Change.lastRound h := by
  induction h using List.reverseRecOn with
  | nil => rfl
  | append_singleton h c ih =>
    rw [replay_append, Change.lastRound_concat, ← ih]
    cases c <;> rfl

/-- A change of another table, or of the durable round, leaves a table alone. -/
theorem table_apply_of_not_concerns {s : Store} {c : Change} (hc : c.concerns t = false) :
    (c.apply s).table t = s.table t := by
  cases c with
  | put t' r v | prune t' floor =>
    have hne : t ≠ t' := fun heq => by simp [Change.concerns, heq] at hc
    simp [Change.apply, put, pruneBelow, table_setTable, hne]
  | setRound r => rfl

/-- What a change makes of a table depends on that table alone. -/
theorem table_apply_congr {s s' : Store} (c : Change) (htable : s.table t = s'.table t) :
    (c.apply s).table t = (c.apply s').table t := by
  cases c with
  | put t' r v | prune t' floor =>
    simp only [Change.apply, put, pruneBelow, table_setTable]
    by_cases ht : t = t'
    · subst ht
      rw [htable]
    · rw [if_neg ht, if_neg ht, htable]
  | setRound r => exact htable

/-- The history of a table is enough to know its rows, whatever happens to the others. -/
theorem table_replay_filter :
    (empty.replay (h.filter (·.concerns t))).table t = (empty.replay h).table t := by
  induction h using List.reverseRecOn with
  | nil => rfl
  | append_singleton h c ih =>
    rw [List.filter_append, replay_append, replay_append]
    cases hc : c.concerns t with
    | true =>
      rw [List.filter_cons_of_pos hc]
      exact table_apply_congr c ih
    | false =>
      rw [List.filter_cons_of_neg (by simp [hc])]
      exact ih.trans (table_apply_of_not_concerns hc).symm

end Store

/-! ## Answers and their histories -/

section Answers

variable {h : List Change} {text : String} {t : TableName} {refusal : TableRefusal}

/-- Two texts are refused as the name of a table of rounds, each in its own way. -/
theorem TableName.ofString_error (herror : TableName.ofString text = .error refusal) :
    refusal = .unnamed ∧ text = "" ∨ refusal = .keyedByText metaTable ∧ text = metaTable := by
  unfold TableName.ofString at herror
  split at herror
  · next htext => exact .inl ⟨(Except.error.inj herror).symm, htext⟩
  · split at herror
    · next htext => exact .inr ⟨by rw [← htext]; exact (Except.error.inj herror).symm, htext⟩
    · cases herror

/-- The answer to a look-up, from what the history says of the row. -/
theorem Store.get?_reads {Reads : Answer → Prop} {r : Round}
    (row : ∀ v, Change.Survives h t r v → Reads (.bytes v))
    (noRow : ¬ Change.Stays h t r → Reads .nothing) :
    Reads (.option .bytes ((Store.empty.replay h).get? t r)) := by
  cases hget : (Store.empty.replay h).get? t r with
  | some v => exact row v (Store.get?_replay_eq_some_iff.mp hget)
  | none =>
    refine noRow fun hstays => ?_
    rw [← Store.isSome_get?_replay_iff, hget] at hstays
    cases hstays

/-- A reading step is answered as the history says, or refused for the name it gives. -/
theorem Query.reads_answer (q : Query) : q.Reads h (q.answer (Store.empty.replay h)) := by
  cases q with
  | round =>
    rw [answer, run, Store.round_replay]
    exact .round
  | get text r =>
    cases hname : TableName.ofString text with
    | error refusal => simpa [answer, run, hname, Except.map] using Reads.refused rfl hname
    | ok t =>
      simp only [answer, run, hname, Except.map]
      exact Store.get?_reads (fun v => .row hname) (.noRow hname)
  | rows text lo hi =>
    cases hname : TableName.ofString text with
    | error refusal => simpa [answer, run, hname, Except.map] using Reads.refused rfl hname
    | ok t =>
      simp only [answer, run, hname, Except.map]
      refine .rows hname (RoundTable.ascending _) fun r v => ?_
      rw [Store.rowsBetween, ← RoundTable.get?_eq_some_iff, RoundTable.get?_between,
        ← Store.get?_replay_eq_some_iff, Store.get?]
      by_cases hin : lo ≤ r ∧ r ≤ hi <;> simp [hin]

/-- A row is either at or above a floor or gone. -/
theorem Store.pruned_count (s : Store) (t : TableName) (floor : Round) :
    ∃ gone : List Round, gone.Nodup ∧
      (∀ r, r ∈ gone ↔ r < floor ∧ (s.get? t r).isSome) ∧
      (s.pruneBelow t floor).1 = gone.length := by
  refine ⟨((s.table t).keep fun r => r < floor).rounds, RoundTable.nodup_rounds _, fun r => ?_, ?_⟩
  · rw [RoundTable.mem_rounds_iff, ← Option.isSome_iff_exists, RoundTable.get?_keep, Store.get?]
    by_cases hr : r < floor <;> simp [hr]
  · have hsplit := List.length_eq_countP_add_countP
      (fun row : Round × Bytes => floor ≤ row.1) (l := (s.table t).rows)
    simp only [decide_eq_true_eq] at hsplit
    -- Rows are counted as gone by the negation of staying, which is to lie below the floor.
    have hgone : (s.table t).rows.countP (fun row => row.1 < floor) =
        (s.table t).rows.countP (fun row => ¬ floor ≤ row.1) := by
      refine List.countP_congr fun row _ => ?_
      simp [Round.le_def, Round.lt_def]
    simp only [Store.pruneBelow, RoundTable.size, RoundTable.atLeast, RoundTable.rounds,
      RoundTable.keep, List.length_map, ← List.countP_eq_length_filter]
    omega

/-- The answer to a step of a transaction on a working copy. -/
def TxStep.answer (s : Store) (step : TxStep) : Answer :=
  match step.run s with
  | .ok (a, _) => a
  | .error refusal => .refusedTable refusal

/-- So is a step of a transaction, on the history that includes its own changes. -/
theorem TxStep.reads_answer (step : TxStep) :
    step.Reads h (step.answer (Store.empty.replay h)) := by
  cases step with
  | setRound r => exact .setRound
  | round =>
    rw [answer, run, Store.round_replay]
    exact .round
  | put text r v =>
    cases hname : TableName.ofString text with
    | error refusal => simpa [answer, run, hname, Except.map] using Reads.refused rfl hname
    | ok t => simpa [answer, run, hname, Except.map] using Reads.put hname
  | get text r =>
    cases hname : TableName.ofString text with
    | error refusal => simpa [answer, run, hname, Except.map] using Reads.refused rfl hname
    | ok t =>
      simp only [answer, run, hname, Except.map]
      exact Store.get?_reads (fun v => .row hname) (.noRow hname)
  | prune text floor =>
    cases hname : TableName.ofString text with
    | error refusal => simpa [answer, run, hname, Except.map] using Reads.refused rfl hname
    | ok t =>
      obtain ⟨gone, hnodup, hmem, hcount⟩ := (Store.empty.replay h).pruned_count t floor
      simp only [Store.isSome_get?_replay_iff] at hmem
      simpa [answer, run, hname, Except.map, hcount] using Reads.pruned hname hnodup hmem

end Answers

/-! ## Transactions and their histories -/

namespace TxItem

/-- The answer to a step in the list of a transaction. -/
def answer (committed working : Store) : TxItem → Answer
  | outside q => q.answer committed
  | inside step _ => step.answer working

/-- A step sees the committed history from outside of the transaction, and from inside the changes
made so far as well. -/
theorem reads_answer (h own : List Change) (item : TxItem) :
    item.Reads h own (item.answer (Store.empty.replay h) ((Store.empty.replay h).replay own)) := by
  cases item with
  | outside q => exact q.reads_answer
  | inside step tolerated =>
    rw [answer, ← Store.replay_append]
    exact step.reads_answer

end TxItem

/-- A step of a transaction is refused, or answers and makes its change. -/
theorem TxStep.run_cases (s : Store) (step : TxStep) :
    (∃ text refusal, step.table? = some text ∧ TableName.ofString text = .error refusal ∧
      step.change? = none ∧ step.run s = .error refusal) ∨
    (∀ text, step.table? = some text → ∃ t, TableName.ofString text = .ok t) ∧
      step.run s = .ok (step.answer s, s.replay step.change?.toList) := by
  cases step with
  | setRound r => exact .inr ⟨by simp [table?], rfl⟩
  | round => exact .inr ⟨by simp [table?], rfl⟩
  | put text r v | get text r | prune text floor =>
    cases hname : TableName.ofString text with
    | error refusal =>
      exact .inl ⟨text, refusal, rfl, hname, by simp [change?, hname, Except.toOption],
        by simp [run, hname, Except.map]⟩
    | ok t =>
      refine .inr ⟨by rintro _ ⟨⟩; exact ⟨t, hname⟩, ?_⟩
      simp [run, answer, change?, hname, Except.map, Except.toOption, Store.replay, Change.apply]

/-- A reading step is refused or answers. -/
theorem Query.run_cases (s : Store) (q : Query) :
    (∃ text refusal, q.table? = some text ∧ TableName.ofString text = .error refusal ∧
      q.run s = .error refusal) ∨
    (∀ text, q.table? = some text → ∃ t, TableName.ofString text = .ok t) ∧
      q.run s = .ok (q.answer s) := by
  cases q with
  | round => exact .inr ⟨by simp [table?], rfl⟩
  | get text r | rows text lo hi =>
    cases hname : TableName.ofString text with
    | error refusal => exact .inl ⟨text, refusal, rfl, hname, by simp [run, hname, Except.map]⟩
    | ok t =>
      refine .inr ⟨by rintro _ ⟨⟩; exact ⟨t, hname⟩, ?_⟩
      simp [run, answer, hname, Except.map]

namespace TxRun

variable (committed working : Store)

/-- What the first step in a list does to the run of the list. -/
theorem of_cons (item : TxItem) (rest : List TxItem) :
    TxRun.of committed working (item :: rest) =
      if item.table? = some "" then .error .unnamedTable
      else if item.ends then .ok ⟨[item.answer committed working], some metaTable, working⟩
      else (TxRun.of committed (working.replay item.change?.toList) rest).map fun run =>
        { run with answers := item.answer committed working :: run.answers } := by
  -- Of the two names that are refused, the empty one is a fault and the other an error.
  have hempty : ∀ t, TableName.ofString "" ≠ .ok t := by simp [TableName.ofString]
  have hmeta : ∀ t, TableName.ofString metaTable ≠ .ok t := by simp [TableName.ofString, metaTable]
  have hdiff : metaTable ≠ "" := by decide
  cases item with
  | outside q =>
    rcases q.run_cases committed with ⟨text, refusal, htable, hname, hrun⟩ | ⟨htable, hrun⟩
    · rcases TableName.ofString_error hname with ⟨rfl, rfl⟩ | ⟨rfl, rfl⟩
      · simp [TxRun.of, hrun, TxItem.table?, htable]
      · simp [TxRun.of, hrun, TxItem.table?, htable, hdiff, TxItem.ends, TxItem.change?,
          Store.replay, TxItem.answer, Query.answer, Answer.refusedTable]
    · have hne : q.table? ≠ some "" := fun heq => (htable _ heq).elim hempty
      simp [TxRun.of, hrun, TxItem.table?, hne, TxItem.ends, TxItem.change?, Store.replay,
        TxItem.answer]
  | inside step tolerated =>
    rcases step.run_cases working with
      ⟨text, refusal, htable, hname, hchange, hrun⟩ | ⟨htable, hrun⟩
    · rcases TableName.ofString_error hname with ⟨rfl, rfl⟩ | ⟨rfl, rfl⟩
      · simp [TxRun.of, hrun, TxItem.table?, htable]
      · cases tolerated <;>
          simp [TxRun.of, hrun, TxItem.table?, htable, hdiff, TxItem.ends, TxItem.change?, hchange,
            Store.replay, TxItem.answer, TxStep.answer, Answer.refusedTable]
    · have hne : step.table? ≠ some "" := fun heq => (htable _ heq).elim hempty
      have hne' : step.table? ≠ some metaTable := fun heq => (htable _ heq).elim hmeta
      simp [TxRun.of, hrun, TxItem.table?, hne, hne', TxItem.ends, TxItem.change?, TxItem.answer]

end TxRun

namespace TxItem

variable {item : TxItem} {rest : List TxItem}

/-- The refused step that ends a list changes nothing. -/
theorem change?_of_ends (hends : item.ends = true) : item.change? = none := by
  cases item with
  | outside q => rfl
  | inside step tolerated =>
    have htable : step.table? = some metaTable := by simp_all [ends]
    cases step with
    | setRound r | round => cases htable
    | get text r => rfl
    | put text r v | prune text floor =>
      obtain rfl := Option.some.inj htable
      simp [change?, TxStep.change?, TableName.ofString, metaTable, Except.toOption]

/-- A step that ends the list is the last to be carried out, so nothing is changed any more. -/
theorem changes_cons_of_ends (hends : item.ends = true) : changes (item :: rest) = [] := by
  simp [changes, carried, hends, change?_of_ends hends]

/-- Any other step makes its change, and the rest goes on. -/
theorem changes_cons (hends : item.ends = false) :
    changes (item :: rest) = item.change?.toList ++ changes rest := by
  cases hchange : item.change? <;> simp [changes, carried, hends, hchange]

/-- Only its own name can make a step fault; otherwise it is for the rest to fault. -/
theorem faults_cons (hends : item.ends = false) (hempty : item.table? ≠ some "") :
    faults (item :: rest) = faults rest := by
  simp [faults, carried, hends, hempty]

/-- Only the step that ends the list leaves a refusal behind. -/
theorem refused_cons (hends : item.ends = false) : refused (item :: rest) = refused rest := by
  simp [refused, carried, hends]

end TxItem

/-- Steps that come upon an empty table name end by a fault. The others answer one by one, each
on the changes of those before it. -/
theorem TxRun.of_spec (committed working : Store) (items : List TxItem) :
    if TxItem.faults items then TxRun.of committed working items = .error .unnamedTable
    else ∃ answers, TxRun.of committed working items =
        .ok ⟨answers, TxItem.refused items, working.replay (TxItem.changes items)⟩ ∧
      answers.length = (TxItem.carried items).length ∧
      ∀ i (item : TxItem) answer, items[i]? = some item → answers[i]? = some answer →
        answer = item.answer committed (working.replay (TxItem.changes (items.take i))) := by
  -- By induction on the list; the rest of it runs on the store with the change of the first step.
  induction items generalizing working with
  | nil => exact ⟨[], rfl, rfl, by simp⟩
  | cons item rest ih =>
    rw [of_cons]
    by_cases hempty : item.table? = some ""
    · have hfaults : TxItem.faults (item :: rest) = true := by
        by_cases hends : item.ends <;> simp [TxItem.faults, TxItem.carried, hends, hempty]
      rw [if_pos hfaults, if_pos hempty]
    · rw [if_neg hempty]
      cases hends : item.ends with
      | true =>
        have hfaults : TxItem.faults (item :: rest) = false := by
          simp [TxItem.faults, TxItem.carried, hends, hempty]
        rw [hfaults]
        refine ⟨[item.answer committed working], ?_, by simp [TxItem.carried, hends], ?_⟩
        · rw [TxItem.changes_cons_of_ends hends]
          simp [TxItem.refused, TxItem.carried, hends, Store.replay]
        · rintro (_ | i) item' answer hitem hanswer
          · obtain rfl := Option.some.inj hitem
            exact (Option.some.inj hanswer).symm
          · cases hanswer
      | false =>
        rw [TxItem.faults_cons hends hempty]
        specialize ih (working.replay item.change?.toList)
        split
        · next hfaults =>
          rw [if_pos hfaults] at ih
          simp [ih, Except.map]
        · next hfaults =>
          rw [if_neg hfaults] at ih
          obtain ⟨answers, hrun, hlength, hanswers⟩ := ih
          refine ⟨item.answer committed working :: answers, ?_, ?_, ?_⟩
          · rw [TxItem.changes_cons hends, TxItem.refused_cons hends, Store.replay_append]
            simp [hrun, Except.map]
          · simp [TxItem.carried, hends, hlength]
          · rintro (_ | i) item' answer hitem hanswer
            · obtain rfl := Option.some.inj hitem
              exact (Option.some.inj hanswer).symm
            · rw [List.take_succ_cons, TxItem.changes_cons hends, Store.replay_append]
              exact hanswers i item' answer hitem hanswer

namespace DataStep

variable {h : List Change}

/-- The end of a transaction replaces the store exactly if it commits. -/
theorem commits_finish {items : List TxItem} (finish : TxEnd)
    (hfaults : TxItem.faults items = false) :
    (finish.finish (TxItem.refused items)).2 = finish.commits items := by
  unfold TxItem.refused TxEnd.commits
  rw [hfaults]
  by_cases hends : (TxItem.carried items).any TxItem.ends = true <;>
    cases finish <;> simp [hends, TxEnd.finish]

/-- A step leaves the store of the longer history: its changes if it commits them, else the same. -/
theorem run_replay (step : DataStep) :
    (step.run (Store.empty.replay h)).2 = Store.empty.replay (h ++ step.committed) := by
  rw [Store.replay_append]
  cases step with
  | query q => rfl
  | transaction items finish =>
    have hspec := TxRun.of_spec (Store.empty.replay h) (Store.empty.replay h) items
    cases hfaults : TxItem.faults items with
    | true =>
      rw [if_pos hfaults] at hspec
      have hnone : committed (transaction items finish) = [] := by
        simp [committed, TxEnd.commits, hfaults]
      rw [hnone]
      simp only [run, hspec]
      rfl
    | false =>
      rw [if_neg (by simp [hfaults])] at hspec
      obtain ⟨answers, hrun, -⟩ := hspec
      simp only [run, hrun, committed, commits_finish finish hfaults]
      split <;> rfl

/-- A step on the store of a history is answered as the history says. -/
theorem reads_run (step : DataStep) : step.Reads h (step.run (Store.empty.replay h)).1 := by
  cases step with
  | query q => exact q.reads_answer
  | transaction items finish =>
    have hspec := TxRun.of_spec (Store.empty.replay h) (Store.empty.replay h) items
    cases hfaults : TxItem.faults items with
    | true =>
      rw [if_pos hfaults] at hspec
      simp [Reads, hfaults, run, hspec]
    | false =>
      rw [if_neg (by simp [hfaults])] at hspec
      obtain ⟨answers, hrun, hlength, hanswers⟩ := hspec
      simp only [Reads, hfaults, run, hrun]
      refine ⟨answers, rfl, hlength, fun i item answer hitem hanswer => ?_⟩
      rw [hanswers i item answer hitem hanswer]
      exact item.reads_answer h _

/-- Steps one after the other make the history longer one after the other. -/
theorem runAll_replay (steps : List DataStep) :
    runAll (Store.empty.replay h) steps = Store.empty.replay (h ++ history steps) := by
  induction steps generalizing h with
  | nil => simp [runAll, history]
  | cons step steps ih =>
    have htail : runAll (Store.empty.replay h) (step :: steps) =
        runAll (step.run (Store.empty.replay h)).2 steps := rfl
    rw [htail, run_replay, ih, history, history, List.flatMap_cons, List.append_assoc]

theorem runAll_empty (steps : List DataStep) :
    runAll Store.empty steps = Store.empty.replay (history steps) := runAll_replay (h := []) steps

end DataStep

/-- A store keeps exactly the surviving history of the steps on it. A round of a table has a row
if a committed put of it is not followed by a committed pruning above it, with the value of the
last such put; the durable round is the last committed one; a table and the durable round each
depend on their own changes alone. Whatever step comes next is answered from the history, and
leaves the store with the changes that it commits itself. -/
theorem surviving_history (steps : List DataStep) (next : DataStep) :
    let s := DataStep.runAll Store.empty steps
    let h := DataStep.history steps
    (∀ t r, (s.get? t r).isSome ↔ Change.Stays h t r) ∧
    (∀ t r v, s.get? t r = some v ↔ Change.Survives h t r v) ∧
    s.round = Change.lastRound h ∧
    (∀ t, s.table t = (Store.empty.replay (h.filter (·.concerns t))).table t) ∧
    next.Reads h (next.run s).1 ∧
    (next.run s).2 = s.replay next.committed := by
  intro s h
  have hs : s = Store.empty.replay h := DataStep.runAll_empty steps
  rw [hs]
  exact ⟨fun t r => Store.isSome_get?_replay_iff, fun t r v => Store.get?_replay_eq_some_iff,
    Store.round_replay, fun t => Store.table_replay_filter.symm, next.reads_run,
    (next.run_replay).trans (Store.replay_append _ _ _)⟩

end CommitPipeline
