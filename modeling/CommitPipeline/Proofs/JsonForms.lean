import CommitPipeline.Json.Form
import CommitPipeline.Proofs.JsonText
import Mathlib.Data.List.Forall2
import Mathlib.Data.List.Nodup

/-!
# Values and their JSON texts

A value is read back from the text that is written for it. It is read as well from every text in
which, at any level, the fields of an object stand in another order or among fields that the object
does not have. And nothing is read from a text in which an object lacks one of its fields, or has it
more than once.

The module introduces:

* `Varied` — the same value but for the order of fields and for more of them;
* `Torn` — a field is missing or stands there more than once, at some level;
* `Faithful` — what is said above, of a type; `faithful_forms` says it of rounds, digests, headers,
  blocks and deltas.
-/

namespace CommitPipeline.Json

/-- A name that none of the fields has. -/
def Unknown (fields : List (List Piece × Json)) (name : List Piece) : Prop :=
  ∃ text, Piece.text? name = some text ∧ ∀ f ∈ fields, Piece.text? f.1 ≠ some text

mutual

/-- The second value is the first one but for the order in which fields stand in its objects, and
for fields that these do not have. This goes for objects at every level. -/
inductive Varied : Json → Json → Prop
  | null : Varied null null
  | bool (value : Bool) : Varied (bool value) (bool value)
  | nat (value : Nat) : Varied (nat value) (nat value)
  | number (text : List Char) : Varied (number text) (number text)
  | str (pieces : List Piece) : Varied (str pieces) (str pieces)
  | arr {items items' : List Json} (h : VariedItems items items') : Varied (arr items) (arr items')
  | obj {fields known extra fields' : List (List Piece × Json)} (h : VariedFields fields known)
      (hextra : ∀ f ∈ extra, Unknown fields f.1) (hperm : fields'.Perm (known ++ extra)) :
      Varied (obj fields) (obj fields')

/-- The items of two arrays are varied one by one. -/
inductive VariedItems : List Json → List Json → Prop
  | nil : VariedItems [] []
  | cons {item item' : Json} {items items' : List Json} (h : Varied item item')
      (hrest : VariedItems items items') : VariedItems (item :: items) (item' :: items')

/-- Fields have the same names, which may be spelled in different ways, and varied values. -/
inductive VariedFields : List (List Piece × Json) → List (List Piece × Json) → Prop
  | nil : VariedFields [] []
  | cons {f f' : List Piece × Json} {fields fields' : List (List Piece × Json)}
      (hname : Piece.text? f'.1 = Piece.text? f.1) (h : Varied f.2 f'.2)
      (hrest : VariedFields fields fields') : VariedFields (f :: fields) (f' :: fields')

end

/-- The values of the fields with a name. -/
def valuesOf (name : List Char) (fields : List (List Piece × Json)) : List Json :=
  fields.filterMap fun f => if Piece.text? f.1 = some name then some f.2 else none

/-- The second value is an object as the first one, or has such an object at a deeper level, in
which one of the fields of the first one does not stand exactly once. Of the other fields nothing
is said. -/
inductive Torn : Json → Json → Prop
  | here {fields fields' : List (List Piece × Json)} {name : List Char}
      (hname : ∃ f ∈ fields, Piece.text? f.1 = some name)
      (hcount : (valuesOf name fields').length ≠ 1) : Torn (obj fields) (obj fields')
  | under {fields fields' : List (List Piece × Json)} {f f' : List Piece × Json} (hf : f ∈ fields)
      (hf' : f' ∈ fields') (hname : Piece.text? f'.1 = Piece.text? f.1) (h : Torn f.2 f'.2) :
      Torn (obj fields) (obj fields')

/-- The JSON texts of the values of a type. -/
structure Faithful (α : Type) [Form α] : Prop where
  /-- A value is read back from what is written for it. -/
  roundtrip : ∀ v : α, decode α (encode v) = some v
  /-- It is read from all texts of varied forms. -/
  varied : ∀ (v : α) (j : Json) (text : String), Varied (Form.write v) j → Spelled j text →
    decode α text = some v
  /-- From a text of a torn form nothing is read. -/
  torn : ∀ (v : α) (j : Json) (text : String), Torn (Form.write v) j → Spelled j text →
    decode α text = none

/-! ## Lists of answers -/

section Answers

variable {α β : Type} {f : α → Option β} {as : List α} {bs : List β}

/-- Answers to all questions of a list, paired with the questions. -/
theorem mapM_eq_some_iff : as.mapM f = some bs ↔ List.Forall₂ (fun a b => f a = some b) as bs := by
  induction as generalizing bs with
  | nil => cases bs <;> simp
  | cons a as ih =>
    rw [List.mapM_cons, List.forall₂_cons_left_iff]
    cases ha : f a with
    | none => simp
    | some b =>
      cases has : as.mapM f with
      | none =>
        have hnone : ∀ bs, ¬List.Forall₂ (fun a b => f a = some b) as bs :=
          fun bs h => by simp [ih.mpr h] at has
        simp [hnone]
      | some bs' =>
        simp only [← ih, has]
        simp [eq_comm]

/-- What is paired with an element of the first of two related lists. -/
theorem exists_mem_zip {R : α → β → Prop} (h : List.Forall₂ R as bs) {a : α} (ha : a ∈ as) :
    ∃ b, (a, b) ∈ as.zip bs ∧ R a b := by
  induction h with
  | nil => cases ha
  | @cons a' b as bs hab _ ih =>
    rcases List.mem_cons.mp ha with rfl | hrest
    · exact ⟨b, List.mem_cons_self, hab⟩
    · obtain ⟨b', hmem, hab'⟩ := ih hrest
      exact ⟨b', List.mem_cons_of_mem _ hmem, hab'⟩

end Answers

/-! ## Varied values -/

mutual

/-- Every value is a varied form of itself. -/
theorem Varied.refl : ∀ j : Json, Varied j j
  | .null => .null
  | .bool value => .bool value
  | .nat value => .nat value
  | .number text => .number text
  | .str pieces => .str pieces
  | .arr items => .arr (VariedItems.refl items)
  | .obj fields =>
    .obj (VariedFields.refl fields) (fun _ hf => absurd hf List.not_mem_nil)
      (by rw [List.append_nil])

theorem VariedItems.refl : ∀ items : List Json, VariedItems items items
  | [] => .nil
  | item :: items => .cons (Varied.refl item) (VariedItems.refl items)

theorem VariedFields.refl : ∀ fields : List (List Piece × Json), VariedFields fields fields
  | [] => .nil
  | (_, value) :: fields => .cons rfl (Varied.refl value) (VariedFields.refl fields)

end

/-- A value that has only itself as a varied form. -/
def Rigid (j : Json) : Prop := ∀ j', Varied j j' → j' = j

theorem rigid_null : Rigid null := by
  rintro _ ⟨⟩
  rfl

theorem rigid_nat (n : Nat) : Rigid (nat n) := by
  rintro _ ⟨⟩
  rfl

/-- An array is rigid if its items are. -/
theorem rigid_arr {items : List Json} (h : ∀ j ∈ items, Rigid j) : Rigid (arr items) := by
  rintro _ ⟨⟩
  next items' hitems =>
  congr 1
  induction items generalizing items' with
  | nil =>
    cases hitems
    rfl
  | cons item items ih =>
    cases hitems with
    | cons hitem hrest =>
      obtain ⟨hrigid, hothers⟩ := List.forall_mem_cons.mp h
      rw [hrigid _ hitem, ih hothers hrest]

/-- Varied fields, as a relation on two lists. -/
theorem forall₂_of_variedFields {fields known : List (List Piece × Json)}
    (h : VariedFields fields known) :
    List.Forall₂ (fun f f' => Piece.text? f'.1 = Piece.text? f.1 ∧ Varied f.2 f'.2)
      fields known := by
  induction fields generalizing known with
  | nil =>
    cases h
    exact .nil
  | cons f fields ih =>
    cases h with
    | cons hname h hrest => exact .cons ⟨hname, h⟩ (ih hrest)

/-! ## The fields of an object -/

section Fields

variable {names : List String} {fields known extra : List (List Piece × Json)}
  {named : List (List Char × Json)} {values : List Json} {name : List Char}

/-- A field with its name as a text, for a name that has one. -/
def textName (f : List Piece × Json) : List Char × Json := ((Piece.text? f.1).getD [], f.2)

/-- Every field has a name that can be spelled out, and these are the names. -/
theorem fieldNames_eq_some_iff : fieldNames fields = some named ↔
    (∀ f ∈ fields, (Piece.text? f.1).isSome) ∧ named = fields.map textName := by
  rw [fieldNames, mapM_eq_some_iff]
  constructor
  · intro h
    induction h with
    | nil => exact ⟨fun f hf => absurd hf List.not_mem_nil, rfl⟩
    | @cons f n fields named hn _ ih =>
      obtain ⟨text, htext, rfl⟩ := Option.map_eq_some_iff.mp hn
      obtain ⟨hall, rfl⟩ := ih
      refine ⟨List.forall_mem_cons.mpr ⟨by rw [htext]; rfl, hall⟩, ?_⟩
      rw [List.map_cons, textName, htext, Option.getD_some]
  · rintro ⟨hall, rfl⟩
    rw [List.forall₂_map_right_iff, List.forall₂_same]
    intro f hf
    obtain ⟨text, htext⟩ := Option.isSome_iff_exists.mp (hall f hf)
    rw [textName, htext]
    rfl

/-- The one value of a field is the only one of the values with its name. -/
theorem single_eq_some_iff (hall : ∀ f ∈ fields, (Piece.text? f.1).isSome) {name : String}
    {value : Json} :
    single (fields.map textName) name = some value ↔ valuesOf name.toList fields = [value] := by
  have hvalues : ((fields.map textName).filter fun n => n.1 = name.toList).map Prod.snd =
      valuesOf name.toList fields := by
    unfold valuesOf
    induction fields with
    | nil => rfl
    | cons f fields ih =>
      obtain ⟨hf, hrest⟩ := List.forall_mem_cons.mp hall
      obtain ⟨text, htext⟩ := Option.isSome_iff_exists.mp hf
      have htail := ih hrest
      by_cases hsame : text = name.toList
      · simp [textName, htext, hsame] at htail ⊢
        exact htail
      · simp [textName, htext, hsame] at htail ⊢
        exact htail
  rw [← hvalues]
  unfold single
  -- One field with the name is found, or none or several are.
  split
  · next n hfilter => simp [hfilter]
  · next hmany =>
    refine ⟨nofun, fun heq => ?_⟩
    obtain ⟨n, hn, -⟩ := List.map_eq_singleton_iff.mp heq
    exact absurd hn (hmany n)

/-- What is found of an object for each name is the only value of the fields with that name. -/
theorem forall₂_of_members (h : members names (obj fields) = some values) :
    List.Forall₂ (fun name value => valuesOf name.toList fields = [value]) names values := by
  rw [members] at h
  obtain ⟨named, hnamed, h⟩ := Option.bind_eq_some_iff.mp h
  obtain ⟨hall, rfl⟩ := fieldNames_eq_some_iff.mp hnamed
  split at h
  · exact (mapM_eq_some_iff.mp h).imp fun name value => (single_eq_some_iff hall).mp
  · cases h

/-- The members of an object whose names are texts, and whose values may all be passed over. -/
theorem members_eq_some (hall : ∀ f ∈ fields, (Piece.text? f.1).isSome)
    (hsound : ∀ f ∈ fields, f.2.isSound = true)
    (h : List.Forall₂ (fun name value => valuesOf name.toList fields = [value]) names values) :
    members names (obj fields) = some values := by
  have hpassed : ((fields.map textName).all fun f =>
      names.any (·.toList = f.1) || f.2.isSound) = true := by
    simp only [List.all_map, List.all_eq_true, Function.comp_apply, Bool.or_eq_true]
    exact fun f hf => .inr (hsound f hf)
  rw [members, fieldNames_eq_some_iff.mpr ⟨hall, rfl⟩, Option.bind_some, if_pos hpassed]
  exact mapM_eq_some_iff.mpr (h.imp fun name value => (single_eq_some_iff hall).mpr)

/-- An object without one of the fields, or with one of them more than once, is no record. -/
theorem members_eq_none {name : String} (hname : name ∈ names)
    (hcount : (valuesOf name.toList fields).length ≠ 1) : members names (obj fields) = none := by
  cases h : members names (obj fields) with
  | none => rfl
  | some values =>
    obtain ⟨value, -, hvalue⟩ := exists_mem_zip (forall₂_of_members h) hname
    exact absurd (congrArg List.length hvalue) hcount

/-- A name that no field has has no values. -/
theorem valuesOf_eq_nil (h : ∀ f ∈ fields, Piece.text? f.1 ≠ some name) :
    valuesOf name fields = [] := by
  unfold valuesOf
  rw [List.filterMap_eq_nil_iff]
  exact fun f hf => if_neg (h f hf)

/-- Among fields of different names a field is the only one with its name. -/
theorem valuesOf_eq_singleton {f : List Piece × Json}
    (hnodup : (known.map fun f => Piece.text? f.1).Nodup) (hf : f ∈ known)
    (hname : Piece.text? f.1 = some name) : valuesOf name known = [f.2] := by
  induction known with
  | nil => cases hf
  | cons g known ih =>
    obtain ⟨hnew, hrest⟩ := List.nodup_cons.mp hnodup
    rcases List.mem_cons.mp hf with rfl | hf
    · have hnone : valuesOf name known = [] := valuesOf_eq_nil fun g hg heq =>
        hnew (List.mem_map.mpr ⟨g, hg, heq.trans hname.symm⟩)
      unfold valuesOf at hnone ⊢
      simp [hname, hnone]
    · have hother : Piece.text? g.1 ≠ some name := fun heq =>
        hnew (List.mem_map.mpr ⟨f, hf, hname.trans heq.symm⟩)
      have htail := ih hrest hf
      unfold valuesOf at htail ⊢
      simp [hother, htail]

/-- The order of fields among others does not matter to the values with a name. -/
theorem valuesOf_perm_append (hperm : fields.Perm (known ++ extra)) (name : List Char) :
    (valuesOf name fields).Perm (valuesOf name known ++ valuesOf name extra) := by
  unfold valuesOf
  rw [← List.filterMap_append]
  exact hperm.filterMap _

/-- A field's value is among those of its name. -/
theorem mem_valuesOf {f : List Piece × Json} (hf : f ∈ fields)
    (hname : Piece.text? f.1 = some name) : f.2 ∈ valuesOf name fields :=
  List.mem_filterMap.mpr ⟨f, hf, if_pos hname⟩

end Fields

/-! ## The fields of a record -/

/-- A name without escapes is spelled as it is. -/
theorem text?_ofString {name : String} (h : NeedsNoEscape name) :
    Piece.text? (Piece.ofString name) = some name.toList := by
  unfold NeedsNoEscape at h
  unfold Piece.ofString
  generalize name.toList = cs at h
  induction cs with
  | nil => rfl
  | cons c cs ih =>
    obtain ⟨⟨-, -, hcontrol⟩, hrest⟩ := List.forall_mem_cons.mp h
    rw [List.map_cons, Piece.text?, if_neg (Nat.not_lt.mpr hcontrol), ih hrest]
    rfl

/-- An object is sound only if all its values are. -/
theorem isSound_of_fieldsAreSound {fields : List (List Piece × Json)}
    (h : fieldsAreSound fields = true) : ∀ f ∈ fields, f.2.isSound = true := by
  induction fields with
  | nil => exact fun f hf => absurd hf List.not_mem_nil
  | cons f fields ih =>
    rw [fieldsAreSound, Bool.and_eq_true, Bool.and_eq_true] at h
    exact List.forall_mem_cons.mpr ⟨h.1.2, ih h.2⟩

/-- The fields of a record, each name once and without escapes. -/
structure Fields (fields : List (String × Json)) : Prop where
  noEscape : ∀ f ∈ fields, NeedsNoEscape f.1
  nodup : (fields.map Prod.fst).Nodup

variable {fields : List (String × Json)} {j : Json}

/-- The fields of a varied record have the names of the record, and varied values. -/
theorem texts_of_variedFields {known : List (List Piece × Json)} (hfields : Fields fields)
    (h : VariedFields (fields.map fun f => (Piece.ofString f.1, f.2)) known) :
    List.Forall₂ (fun f f' => Piece.text? f'.1 = some f.1.toList ∧ Varied f.2 f'.2)
      fields known := by
  have hpairs := List.forall₂_map_left_iff.mp (forall₂_of_variedFields h)
  rw [List.forall₂_iff_zip] at hpairs ⊢
  refine ⟨hpairs.1, fun {f f'} hmem => ?_⟩
  obtain ⟨hname, hvalue⟩ := hpairs.2 hmem
  rw [text?_ofString (hfields.noEscape f (List.of_mem_zip hmem).1)] at hname
  exact ⟨hname, hvalue⟩

/-- From a varied form of a record a varied form of each of its values is found. -/
theorem members_of_varied (hfields : Fields fields) (h : Varied (record fields) j)
    (hsound : j.isSound = true) :
    ∃ values, members (fields.map Prod.fst) j = some values ∧
      List.Forall₂ Varied (fields.map Prod.snd) values ∧ ∀ v ∈ values, v.isSound = true := by
  cases h with
  | @obj _ known extra fields' h hextra hperm =>
    have htexts := texts_of_variedFields hfields h
    have hnames : known.map (fun f => Piece.text? f.1) =
        (fields.map Prod.fst).map fun name => some name.toList := by
      rw [List.map_map, ← List.forall₂_eq_eq_eq, List.forall₂_map_left_iff,
        List.forall₂_map_right_iff]
      exact htexts.flip.imp fun f' f hpair => hpair.1
    have hnodup : (known.map fun f => Piece.text? f.1).Nodup := by
      rw [hnames]
      exact hfields.nodup.map fun a b hab => String.toList_injective (Option.some.inj hab)
    -- Each of the known fields is the only one with its name, also among the others.
    have hvalues : ∀ f f', (f, f') ∈ fields.zip known → valuesOf f.1.toList fields' = [f'.2] := by
      intro f f' hmem
      obtain ⟨hf, hf'⟩ := List.of_mem_zip hmem
      have hname := ((List.forall₂_iff_zip.mp htexts).2 hmem).1
      have hunknown : valuesOf f.1.toList extra = [] := by
        refine valuesOf_eq_nil fun g hg heq => ?_
        obtain ⟨text, htext, hother⟩ := hextra g hg
        refine hother _ (List.mem_map_of_mem hf) ?_
        rw [text?_ofString (hfields.noEscape f hf), ← heq, htext]
      have hone := valuesOf_perm_append hperm f.1.toList
      rw [hunknown, valuesOf_eq_singleton hnodup hf' hname, List.append_nil] at hone
      exact List.perm_singleton.mp hone
    have hall : ∀ f ∈ fields', (Piece.text? f.1).isSome := by
      intro f hf
      rcases List.mem_append.mp (hperm.mem_iff.mp hf) with hknown | hextra'
      · have hname : Piece.text? f.1 ∈ known.map fun f => Piece.text? f.1 :=
          List.mem_map.mpr ⟨f, hknown, rfl⟩
        rw [hnames] at hname
        obtain ⟨name, -, heq⟩ := List.mem_map.mp hname
        rw [← heq]
        rfl
      · obtain ⟨text, htext, -⟩ := hextra f hextra'
        rw [htext]
        rfl
    have hpassed := isSound_of_fieldsAreSound hsound
    refine ⟨known.map Prod.snd, members_eq_some hall hpassed ?_, ?_, ?_⟩
    · rw [List.forall₂_map_left_iff, List.forall₂_map_right_iff, List.forall₂_iff_zip]
      exact ⟨(List.forall₂_iff_zip.mp htexts).1, fun {f f'} => hvalues f f'⟩
    · rw [List.forall₂_map_left_iff, List.forall₂_map_right_iff]
      exact htexts.imp fun f f' hpair => hpair.2
    · intro v hv
      obtain ⟨f, hf, rfl⟩ := List.mem_map.mp hv
      exact hpassed f (hperm.mem_iff.mpr (List.mem_append_left _ hf))

/-- Of a torn form of a record nothing is found, or a value that is torn itself. -/
theorem members_of_torn (hfields : Fields fields) (h : Torn (record fields) j) :
    members (fields.map Prod.fst) j = none ∨
      ∃ values, members (fields.map Prod.fst) j = some values ∧ values.length = fields.length ∧
        ∃ found ∈ fields.zip values, Torn found.1.2 found.2 := by
  cases h with
  | here hname hcount =>
    obtain ⟨_, hmem, hname⟩ := hname
    obtain ⟨f, hf, rfl⟩ := List.mem_map.mp hmem
    rw [text?_ofString (hfields.noEscape f hf)] at hname
    obtain rfl := Option.some.inj hname
    exact .inl (members_eq_none (List.mem_map_of_mem hf) hcount)
  | @under _ fields' _ f' hmem hf' hname h =>
    obtain ⟨f, hf, rfl⟩ := List.mem_map.mp hmem
    rw [text?_ofString (hfields.noEscape f hf)] at hname
    cases hvalues : members (fields.map Prod.fst) (obj fields') with
    | none => exact .inl rfl
    | some values =>
      have hall := List.forall₂_map_left_iff.mp (forall₂_of_members hvalues)
      -- The torn value is among those with its name, of which there is only one.
      obtain ⟨value, hpair, hvalue⟩ := exists_mem_zip hall hf
      have hfound := mem_valuesOf hf' hname
      rw [hvalue, List.mem_singleton] at hfound
      exact .inr ⟨values, rfl, hall.length_eq.symm, (f, value), hpair, hfound ▸ h⟩

/-- A record is printed as soon as its values are, for its names need no escape. -/
theorem printed_record (hfields : Fields fields) (h : ∀ f ∈ fields, Printed f.2) :
    Printed (record fields) := printed_obj fun f hf => ⟨hfields.noEscape f hf, h f hf⟩

/-! ## The forms -/

/-- What a type has to show of its form for its texts to be faithful. -/
structure Restores (α : Type) [Form α] : Prop where
  printed : ∀ v : α, Printed (Form.write v)
  varied : ∀ (v : α) {j : Json}, Varied (Form.write v) j → j.isSound = true → Form.read j = some v
  torn : ∀ (v : α) {j : Json}, Torn (Form.write v) j → (Form.read j : Option α) = none

/-- It is enough to look at forms: printing and spelling are the same for all types. -/
theorem Restores.faithful {α : Type} [Form α] (h : Restores α) : Faithful α := by
  have hvaried : ∀ (v : α) (j : Json) (text : String), Varied (Form.write v) j → Spelled j text →
      decode α text = some v := by
    intro v j text hv htext
    obtain ⟨hparse, hsound⟩ := parse_of_spelled htext
    rw [decode, hparse, Option.bind_some]
    exact h.varied v hv hsound
  refine ⟨fun v => ?_, hvaried, fun v j text htorn htext => ?_⟩
  · exact hvaried v _ _ (Varied.refl _) (h.printed v).spelled
  · rw [decode, (parse_of_spelled htext).1, Option.bind_some]
    exact h.torn v htorn

/-- An array is read back item by item. -/
theorem readArray_map {α : Type} {read : Json → Option α} {write : α → Json}
    (h : ∀ a, read (write a) = some a) (as : List α) :
    readArray read (arr (as.map write)) = some as := by
  rw [readArray, mapM_eq_some_iff, List.forall₂_map_left_iff, List.forall₂_same]
  exact fun a _ => h a

/-- A word is read back from its number. -/
theorem readWord_toNat (w : UInt64) : readWord (nat w.toNat) = some w := by
  have hlimit : w.toNat < Round.limit := w.toNat_lt
  rw [readWord, Word.ofNat?, if_pos hlimit, UInt64.ofNat_toNat]

/-- Bytes are read back from their array of numbers. -/
theorem readBytes_writeBytes (bytes : Bytes) : readBytes (writeBytes bytes) = some bytes := by
  refine readArray_map (fun b => ?_) bytes
  have hsize : b.toNat < UInt8.size := b.toNat_lt
  rw [readByte, if_pos hsize, UInt8.ofNat_toNat]

/-- Bytes have no fields to vary. -/
theorem rigid_writeBytes (bytes : Bytes) : Rigid (writeBytes bytes) := by
  refine rigid_arr fun j hj => ?_
  obtain ⟨b, -, rfl⟩ := List.mem_map.mp hj
  exact rigid_nat _

/-- What is printed for bytes is a text of them. -/
theorem printed_writeBytes (bytes : Bytes) : Printed (writeBytes bytes) := by
  refine printed_arr fun j hj => ?_
  obtain ⟨b, -, rfl⟩ := List.mem_map.mp hj
  exact printed_nat _

/-- A write of a delta is read back, whether it has a value or deletes its key. -/
theorem readPair_writePair (w : Bytes × Option Bytes) : readPair (writePair w) = some w := by
  obtain ⟨key, _ | value⟩ := w
  · simp [writePair, readPair, readBytes_writeBytes, readOption]
  · have hvalue : readOption readBytes (writeBytes value) =
        (readBytes (writeBytes value)).map some := rfl
    simp [writePair, readPair, readBytes_writeBytes, hvalue]

/-- A write is a pair, which has no fields to vary. -/
theorem rigid_writePair (w : Bytes × Option Bytes) : Rigid (writePair w) := by
  obtain ⟨key, _ | value⟩ := w
  · refine rigid_arr ?_
    simpa using ⟨rigid_writeBytes key, rigid_null⟩
  · refine rigid_arr ?_
    simpa using ⟨rigid_writeBytes key, rigid_writeBytes value⟩

/-- What is printed for a write is a text of it. -/
theorem printed_writePair (w : Bytes × Option Bytes) : Printed (writePair w) := by
  obtain ⟨key, _ | value⟩ := w
  · refine printed_arr ?_
    simpa using ⟨printed_writeBytes key, printed_null⟩
  · refine printed_arr ?_
    simpa using ⟨printed_writeBytes key, printed_writeBytes value⟩

/-- Rounds are written as numbers. -/
theorem restores_round : Restores Round where
  printed r := printed_nat r.toNat
  varied r j hj _ := by
    obtain rfl := rigid_nat _ _ hj
    show (readWord (nat r.val.toNat)).map Round.mk = some r
    rw [readWord_toNat]
    rfl
  torn r j hj := nomatch hj

/-- Digests are written as arrays of 32 bytes. -/
theorem restores_digest : Restores Digest where
  printed d := printed_writeBytes d.bytes
  varied d j hj _ := by
    obtain rfl := rigid_writeBytes _ _ hj
    show (readBytes (writeBytes d.bytes)).bind Digest.ofBytes? = some d
    rw [readBytes_writeBytes, Option.bind_some, Digest.ofBytes?, dif_pos d.length_bytes]
  torn d j hj := nomatch hj

/-- The fields of a header with their forms. -/
def headerFields (h : Header) : List (String × Json) :=
  [("round", Form.write h.round), ("branch", Form.write h.branch),
    ("timestamp", nat h.timestamp.toNat)]

/-- The three names of a header's fields are apart and need no escape. -/
theorem fields_header (h : Header) : Fields (headerFields h) where
  noEscape := by simp only [headerFields, List.forall_mem_cons]; decide
  nodup := by simp [headerFields]

/-- A header is read from its three members, in this order. -/
theorem read_header {j round branch timestamp : Json}
    (hmembers : members ["round", "branch", "timestamp"] j = some [round, branch, timestamp]) :
    Form.read j = (Form.read round).bind fun r => (Form.read branch).bind fun d =>
      (readWord timestamp).bind fun t => some (Header.mk r d t) := by
  simp only [Form.read, hmembers]
  rfl

/-- Headers are objects over rounds, digests and numbers. -/
theorem restores_header : Restores Header where
  printed h := by
    refine printed_record (fields_header h) ?_
    simpa [headerFields] using ⟨restores_round.printed h.round, restores_digest.printed h.branch,
      printed_nat h.timestamp.toNat⟩
  varied h j hj hsound := by
    obtain ⟨values, hmembers, hvalues, hsounds⟩ := members_of_varied (fields_header h) hj hsound
    obtain _ | ⟨hround, _ | ⟨hbranch, _ | ⟨htimestamp, _ | _⟩⟩⟩ := hvalues
    simp only [List.forall_mem_cons] at hsounds
    obtain rfl := rigid_nat _ _ htimestamp
    replace hround := restores_round.varied _ hround hsounds.1
    replace hbranch := restores_digest.varied _ hbranch hsounds.2.1
    rw [read_header hmembers, hround, hbranch, readWord_toNat]
    rfl
  torn h j hj := by
    obtain hnone | ⟨values, -, hlength, found, hfound, htorn⟩ :=
      members_of_torn (fields_header h) hj
    · replace hnone : members ["round", "branch", "timestamp"] j = none := hnone
      simp only [Form.read, hnone]
    -- No value of a header is an object.
    · have hfield := (List.of_mem_zip hfound).1
      simp only [headerFields, List.mem_cons, List.not_mem_nil, or_false] at hfield
      obtain heq | heq | heq := hfield <;> rw [heq] at htorn <;> exact nomatch htorn

/-- The fields of a block with their forms. -/
def blockFields (b : Block) : List (String × Json) :=
  [("header", Form.write b.header), ("txns", arr (b.txns.map writeBytes))]

/-- So are the two names of a block's fields. -/
theorem fields_block (b : Block) : Fields (blockFields b) where
  noEscape := by simp only [blockFields, List.forall_mem_cons]; decide
  nodup := by simp [blockFields]

/-- An array is printed as soon as its items are. -/
theorem printed_map {α : Type} {write : α → Json} (h : ∀ a, Printed (write a)) (as : List α) :
    Printed (arr (as.map write)) := by
  refine printed_arr fun j hj => ?_
  obtain ⟨a, -, rfl⟩ := List.mem_map.mp hj
  exact h a

/-- An array of rigid items is rigid, however they are written. -/
theorem rigid_map {α : Type} {write : α → Json} (h : ∀ a, Rigid (write a)) (as : List α) :
    Rigid (arr (as.map write)) := by
  refine rigid_arr fun j hj => ?_
  obtain ⟨a, -, rfl⟩ := List.mem_map.mp hj
  exact h a

/-- A block is read from its header and its transactions. -/
theorem read_block {j header txns : Json}
    (hmembers : members ["header", "txns"] j = some [header, txns]) :
    Form.read j = (Form.read header).bind fun h =>
      (readArray readBytes txns).bind fun ts => some (Block.mk h ts) := by
  simp only [Form.read, hmembers]
  rfl

/-- Blocks have a header one level down, whose fields may vary in turn. -/
theorem restores_block : Restores Block where
  printed b := by
    refine printed_record (fields_block b) ?_
    simpa only [blockFields, List.forall_mem_cons] using ⟨restores_header.printed b.header,
      printed_map printed_writeBytes b.txns, by simp⟩
  varied b j hj hsound := by
    obtain ⟨values, hmembers, hvalues, hsounds⟩ := members_of_varied (fields_block b) hj hsound
    obtain _ | ⟨hheader, _ | ⟨htxns, _ | _⟩⟩ := hvalues
    simp only [List.forall_mem_cons] at hsounds
    obtain rfl := rigid_map rigid_writeBytes _ _ htxns
    replace hheader := restores_header.varied _ hheader hsounds.1
    rw [read_block hmembers, hheader, readArray_map readBytes_writeBytes]
    rfl
  torn b j hj := by
    obtain hnone | ⟨values, hmembers, hlength, found, hfound, htorn⟩ :=
      members_of_torn (fields_block b) hj
    · replace hnone : members ["header", "txns"] j = none := hnone
      simp only [Form.read, hnone]
    · obtain ⟨header, txns, rfl⟩ := List.length_eq_two.mp hlength
      simp only [blockFields, List.zip_cons_cons, List.zip_nil_right, List.mem_cons,
        List.not_mem_nil, or_false] at hfound
      obtain rfl | rfl := hfound
      -- No header is read from a torn one, whatever the transactions are.
      · rw [read_block hmembers, restores_header.torn b.header htorn]
        rfl
      · exact nomatch htorn

/-- The fields of a delta with their forms. -/
def deltaFields (d : Delta) : List (String × Json) :=
  [("round", Form.write d.round), ("writes", arr (d.writes.map writePair))]

/-- The two names of a delta's fields are apart and need no escape. -/
theorem fields_delta (d : Delta) : Fields (deltaFields d) where
  noEscape := by simp only [deltaFields, List.forall_mem_cons]; decide
  nodup := by simp [deltaFields]

/-- A delta is read from its round and its writes. -/
theorem read_delta {j round writes : Json}
    (hmembers : members ["round", "writes"] j = some [round, writes]) :
    Form.read j = (Form.read round).bind fun r =>
      (readArray readPair writes).bind fun ws => some (Delta.mk r ws) := by
  simp only [Form.read, hmembers]
  rfl

/-- Deltas are objects over a round and an array of pairs. -/
theorem restores_delta : Restores Delta where
  printed d := by
    refine printed_record (fields_delta d) ?_
    simpa only [deltaFields, List.forall_mem_cons] using ⟨restores_round.printed d.round,
      printed_map printed_writePair d.writes, by simp⟩
  varied d j hj hsound := by
    obtain ⟨values, hmembers, hvalues, hsounds⟩ := members_of_varied (fields_delta d) hj hsound
    obtain _ | ⟨hround, _ | ⟨hwrites, _ | _⟩⟩ := hvalues
    simp only [List.forall_mem_cons] at hsounds
    obtain rfl := rigid_map rigid_writePair _ _ hwrites
    replace hround := restores_round.varied _ hround hsounds.1
    rw [read_delta hmembers, hround, Option.bind_some, readArray_map readPair_writePair]
    rfl
  torn d j hj := by
    obtain hnone | ⟨values, -, hlength, found, hfound, htorn⟩ :=
      members_of_torn (fields_delta d) hj
    · replace hnone : members ["round", "writes"] j = none := hnone
      simp only [Form.read, hnone]
    -- No value of a delta is an object.
    · have hfield := (List.of_mem_zip hfound).1
      simp only [deltaFields, List.mem_cons, List.not_mem_nil, or_false] at hfield
      obtain heq | heq := hfield <;> rw [heq] at htorn <;> exact nomatch htorn

/-- JSON reading undoes JSON writing. It does so as well if the fields of objects stand in another
order or among others, at any level, however the text is laid out; and it refuses a text in which,
at any level, a field of an object is missing or stands more than once. -/
theorem faithful_forms :
    Faithful Round ∧ Faithful Digest ∧ Faithful Header ∧ Faithful Block ∧ Faithful Delta :=
  ⟨restores_round.faithful, restores_digest.faithful, restores_header.faithful,
    restores_block.faithful, restores_delta.faithful⟩

example : decode Delta "\x7b\"writes\": [], \"note\": [1e3, null], \"round\": 7\x7d" =
    some ⟨⟨7⟩, []⟩ := by
  decide +kernel

example : decode Delta "\x7b\"round\":7,\"writes\":[],\"round\":7\x7d" = none := by
  decide +kernel

end CommitPipeline.Json
