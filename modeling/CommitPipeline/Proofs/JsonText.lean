import CommitPipeline.Json.Printer
import CommitPipeline.Json.Reader
import Mathlib.Data.List.DropRight
import Mathlib.Tactic.IntervalCases

/-!
# Texts of JSON values

The grammar of JSON, as a relation between values and their texts, and the two sides that meet in
it: the reader takes every text of a value for that value, and what the printer writes is such a
text. The grammar allows blanks between all tokens, any of the escapes inside strings, and numbers
with sign, fraction and exponent.

The module introduces:

* `Digits`, `Whole`, `Fraction`, `Exponent` — the parts of a number;
* `SpellsPieces`, `Spells` — the texts of a string and of a value;
* `Follows` — what may stand behind a value;
* `Reads` — what the reader makes of a text, which holds of all texts by `Spells.reads`;
* `Spelled`, `parse_of_spelled` — a whole text with blanks around its value;
* `Printed` — the printer writes a text of a value.
-/

namespace CommitPipeline.Json

/-! ## The grammar -/

/-- Characters that may stand between tokens. -/
def Blank (cs : List Char) : Prop := ∀ c ∈ cs, isBlank c = true

/-- Decimal digits, at least one. -/
structure Digits (cs : List Char) : Prop where
  nonempty : cs ≠ []
  isDigit : ∀ c ∈ cs, c.isDigit = true

/-- The digits before the point: a single zero, or digits that do not start with a zero. -/
structure Whole (cs : List Char) : Prop extends Digits cs where
  leading : cs = ['0'] ∨ cs.head? ≠ some '0'

/-- The fraction of a number, or none. -/
inductive Fraction : List Char → Prop
  | none : Fraction []
  | some {ds : List Char} (h : Digits ds) : Fraction ('.' :: ds)

/-- The exponent of a number, or none. -/
inductive Exponent : List Char → Prop
  | none : Exponent []
  | some {mark : Char} {sign ds : List Char} (hmark : mark = 'e' ∨ mark = 'E')
      (hsign : sign = [] ∨ sign = ['+'] ∨ sign = ['-']) (h : Digits ds) :
      Exponent (mark :: (sign ++ ds))

/-- The texts of a string between its quotes. -/
inductive SpellsPieces : List Piece → List Char → Prop
  | nil : SpellsPieces [] []
  | raw {c : Char} {pieces : List Piece} {cs : List Char} (hquote : c ≠ '"') (hslash : c ≠ '\\')
      (hcontrol : 0x20 ≤ c.toNat) (h : SpellsPieces pieces cs) :
      SpellsPieces (.raw c :: pieces) (c :: cs)
  | letter {letter c : Char} {pieces : List Piece} {cs : List Char}
      (hletter : escapedChar? letter = some c) (h : SpellsPieces pieces cs) :
      SpellsPieces (.escaped (UInt16.ofNat c.toNat) :: pieces) ('\\' :: letter :: cs)
  | unit {a b c d : Char} {x y z u : Nat} {pieces : List Piece} {cs : List Char}
      (ha : Hex.value? a.toNat = some x) (hb : Hex.value? b.toNat = some y)
      (hc : Hex.value? c.toNat = some z) (hd : Hex.value? d.toNat = some u)
      (h : SpellsPieces pieces cs) :
      SpellsPieces (.escaped (UInt16.ofNat (((x * 16 + y) * 16 + z) * 16 + u)) :: pieces)
        ('\\' :: 'u' :: a :: b :: c :: d :: cs)

mutual

/-- The texts of a value, without blanks before and behind. -/
inductive Spells : Json → List Char → Prop
  | null : Spells null ['n', 'u', 'l', 'l']
  | true : Spells (bool true) ['t', 'r', 'u', 'e']
  | false : Spells (bool false) ['f', 'a', 'l', 's', 'e']
  | nat {ds : List Char} (h : Whole ds) : Spells (nat (Nat.ofDigitChars 10 ds 0)) ds
  | number {sign whole fraction exponent : List Char} (hsign : sign = [] ∨ sign = ['-'])
      (hwhole : Whole whole) (hfraction : Fraction fraction) (hexponent : Exponent exponent)
      (hmore : sign ≠ [] ∨ fraction ≠ [] ∨ exponent ≠ []) :
      Spells (number (sign ++ (whole ++ fraction ++ exponent)))
        (sign ++ (whole ++ fraction ++ exponent))
  | str {pieces : List Piece} {cs : List Char} (h : SpellsPieces pieces cs) :
      Spells (str pieces) ('"' :: (cs ++ ['"']))
  | emptyArr {w : List Char} (hw : Blank w) : Spells (arr []) ('[' :: (w ++ [']']))
  | arr {items : List Json} {cs : List Char} (h : SpellsItems items cs) :
      Spells (arr items) ('[' :: (cs ++ [']']))
  | emptyObj {w : List Char} (hw : Blank w) : Spells (obj []) ('{' :: (w ++ ['}']))
  | obj {fields : List (List Piece × Json)} {cs : List Char} (h : SpellsFields fields cs) :
      Spells (obj fields) ('{' :: (cs ++ ['}']))

/-- The texts of items, at least one, between the brackets of their array. -/
inductive SpellsItems : List Json → List Char → Prop
  | last {item : Json} {w cs w' : List Char} (hw : Blank w) (h : Spells item cs) (hw' : Blank w') :
      SpellsItems [item] (w ++ (cs ++ w'))
  | more {item : Json} {items : List Json} {w cs w' rest : List Char} (hw : Blank w)
      (h : Spells item cs) (hw' : Blank w') (hrest : SpellsItems items rest) :
      SpellsItems (item :: items) (w ++ (cs ++ (w' ++ ',' :: rest)))

/-- The texts of fields, at least one, between the braces of their object. -/
inductive SpellsFields : List (List Piece × Json) → List Char → Prop
  | last {name : List Piece} {value : Json} {w ns w₁ w₂ cs w' : List Char} (hw : Blank w)
      (hname : SpellsPieces name ns) (hw₁ : Blank w₁) (hw₂ : Blank w₂) (h : Spells value cs)
      (hw' : Blank w') :
      SpellsFields [(name, value)] (w ++ '"' :: (ns ++ '"' :: (w₁ ++ ':' :: (w₂ ++ (cs ++ w')))))
  | more {name : List Piece} {value : Json} {fields : List (List Piece × Json)}
      {w ns w₁ w₂ cs w' rest : List Char} (hw : Blank w) (hname : SpellsPieces name ns)
      (hw₁ : Blank w₁) (hw₂ : Blank w₂) (h : Spells value cs) (hw' : Blank w')
      (hrest : SpellsFields fields rest) :
      SpellsFields ((name, value) :: fields)
        (w ++ '"' :: (ns ++ '"' :: (w₁ ++ ':' :: (w₂ ++ (cs ++ (w' ++ ',' :: rest))))))

end

/-- What may stand behind a value: nothing, a blank, or a sign that ends it. -/
def Follows (rest : List Char) : Prop :=
  ∀ c ∈ rest.head?, isBlank c = true ∨ c = ',' ∨ c = ']' ∨ c = '}'

/-! ## Blanks and digits -/

/-- White space in front is skipped. -/
theorem skipBlanks_append {w : List Char} (hw : Blank w) (cs : List Char) :
    skipBlanks (w ++ cs) = skipBlanks cs := by
  unfold skipBlanks
  exact List.dropWhile_append_of_pos hw

/-- Anything else is not. -/
theorem skipBlanks_cons {c : Char} (hc : isBlank c = false) (cs : List Char) :
    skipBlanks (c :: cs) = c :: cs := by
  unfold skipBlanks
  exact List.dropWhile_cons_of_neg (by simp [hc])

/-- White space is skipped at once. -/
@[simp]
theorem skipBlanks_skipBlanks (cs : List Char) : skipBlanks (skipBlanks cs) = skipBlanks cs := by
  unfold skipBlanks
  exact List.dropWhile_idempotent _ cs

/-- Behind white space may stand what may stand behind a value. -/
theorem Blank.follows {w rest : List Char} (hw : Blank w) (hrest : Follows rest) :
    Follows (w ++ rest) := by
  cases w with
  | nil => exact hrest
  | cons b w =>
    rintro c ⟨rfl⟩
    exact .inl (hw _ List.mem_cons_self)

/-- Digits are read up to the first character that is none. -/
theorem spanDigits_append {ds rest : List Char} (hds : ∀ c ∈ ds, c.isDigit = true)
    (hrest : ∀ c ∈ rest.head?, c.isDigit = false) : spanDigits (ds ++ rest) = (ds, rest) := by
  unfold spanDigits
  rw [List.takeWhile_append_of_pos hds, List.dropWhile_append_of_pos hds]
  cases rest with
  | nil => simp
  | cons c rest =>
    have hc := hrest c rfl
    rw [List.takeWhile_cons_of_neg (by simp [hc]), List.dropWhile_cons_of_neg (by simp [hc]),
      List.append_nil]

/-! ## Reading numbers -/

/-- What stands behind a value does not go on with a number. -/
theorem Follows.quiet {rest : List Char} (h : Follows rest) :
    ∀ c ∈ rest.head?, c.isDigit = false ∧ c ≠ '.' ∧ isExponentMark c = false := by
  intro c hc
  have hcases : c = ' ' ∨ c = '\n' ∨ c = '\t' ∨ c = '\r' ∨ c = ',' ∨ c = ']' ∨ c = '}' := by
    rcases h c hc with hblank | hsign
    · simp only [isBlank, Bool.or_eq_true, decide_eq_true_eq] at hblank
      tauto
    · tauto
  rcases hcases with rfl | rfl | rfl | rfl | rfl | rfl | rfl <;> decide

/-- A fraction is read to its last digit. -/
theorem readFraction_append {fraction rest : List Char} (h : Fraction fraction)
    (hdigit : ∀ c ∈ rest.head?, c.isDigit = false) (hpoint : ∀ c ∈ rest.head?, c ≠ '.') :
    readFraction (fraction ++ rest) = some (fraction, rest) := by
  cases h with
  | none =>
    cases rest with
    | nil => rfl
    | cons c rest =>
      rw [List.nil_append, readFraction]
      intro rest' heq
      exact hpoint c rfl (List.cons.inj heq).1
  | some hds =>
    rw [List.cons_append, readFraction]
    simp [spanDigits_append hds.isDigit hdigit, hds.nonempty]

/-- A sign in front of digits is told from them. -/
theorem spanSign_append {sign ds : List Char} (hsign : sign = [] ∨ sign = ['+'] ∨ sign = ['-'])
    (hds : Digits ds) (rest : List Char) :
    spanSign (sign ++ (ds ++ rest)) = (sign, ds ++ rest) := by
  rcases hsign with rfl | rfl | rfl
  · cases ds with
    | nil => exact absurd rfl hds.nonempty
    | cons d ds =>
      have hd := hds.isDigit d List.mem_cons_self
      rw [List.nil_append, List.cons_append, spanSign]
      · rintro _ heq
        obtain ⟨rfl, -⟩ := List.cons.inj heq
        exact absurd hd (by decide)
      · rintro _ heq
        obtain ⟨rfl, -⟩ := List.cons.inj heq
        exact absurd hd (by decide)
  · rfl
  · rfl

/-- An exponent is read to its last digit. -/
theorem readExponent_append {exponent rest : List Char} (h : Exponent exponent)
    (hrest : Follows rest) : readExponent (exponent ++ rest) = some (exponent, rest) := by
  cases h with
  | none =>
    cases rest with
    | nil => rfl
    | cons c rest =>
      have hc := (hrest.quiet c rfl).2.2
      simp [readExponent, hc]
  | @some mark sign ds hmark hsign hds =>
    have hdigit : ∀ c ∈ rest.head?, c.isDigit = false := fun c hc => (hrest.quiet c hc).1
    have hexp : isExponentMark mark = true := by
      rcases hmark with rfl | rfl <;> decide
    simp [readExponent, hexp, spanSign_append hsign hds, spanDigits_append hds.isDigit hdigit,
      hds.nonempty]

/-- Digits without a leading zero are accepted as they are. -/
theorem isWhole_of_whole {ds : List Char} (h : Whole ds) : isWhole ds = true := by
  rcases h.leading with rfl | hleading
  · rfl
  · cases ds with
    | nil => exact absurd rfl h.nonempty
    | cons d ds =>
      have hd : d ≠ '0' := fun heq => hleading (congrArg some heq)
      unfold isWhole
      split
      · next heq => cases heq
      · rfl
      · next heq => simp [← (List.cons.inj heq).1, hd]

/-- A number without a sign is read to its end, as a natural number if it has neither fraction nor
exponent. -/
theorem readUnsigned_append {whole fraction exponent rest : List Char} (hwhole : Whole whole)
    (hfraction : Fraction fraction) (hexponent : Exponent exponent) (hrest : Follows rest) :
    readUnsigned (whole ++ fraction ++ exponent ++ rest) =
      if fraction = [] ∧ exponent = [] then some (nat (Nat.ofDigitChars 10 whole 0), rest)
      else some (number (whole ++ fraction ++ exponent), rest) := by
  -- Neither the point nor the mark of an exponent is a digit, and the mark is no point.
  have hbehind : ∀ c ∈ (exponent ++ rest).head?, c.isDigit = false ∧ c ≠ '.' := by
    cases hexponent with
    | none => exact fun c hc => ⟨(hrest.quiet c hc).1, (hrest.quiet c hc).2.1⟩
    | some hmark =>
      rintro c ⟨rfl⟩
      rcases hmark with rfl | rfl <;> decide
  have hpoint : ∀ c ∈ (fraction ++ (exponent ++ rest)).head?, c.isDigit = false := by
    cases hfraction with
    | none => exact fun c hc => (hbehind c hc).1
    | some =>
      rintro c ⟨rfl⟩
      decide
  have hspan := spanDigits_append hwhole.isDigit hpoint
  have hread := readFraction_append hfraction (fun c hc => (hbehind c hc).1)
    (fun c hc => (hbehind c hc).2)
  rw [List.append_assoc, List.append_assoc]
  simp only [readUnsigned, hspan, isWhole_of_whole hwhole, hread,
    readExponent_append hexponent hrest]
  by_cases hplain : fraction = [] ∧ exponent = []
  · simp [hplain]
  · have hmore : (fraction.isEmpty && exponent.isEmpty) = false := by
      simpa using hplain
    simp [hmore, hplain]

/-- A digit is what is written for its value. -/
theorem digitChar_of_isDigit {d : Char} (hd : d.isDigit = true) :
    d.toNat - '0'.toNat < 10 ∧ (d.toNat - '0'.toNat).digitChar = d := by
  have hvalue : 48 ≤ d.toNat ∧ d.toNat ≤ 57 := by
    simpa [Char.isDigit, UInt32.le_iff_toNat_le] using hd
  obtain ⟨hlow, hhigh⟩ := hvalue
  rw [← Char.ofNat_toNat d]
  interval_cases d.toNat <;> decide

/-- Digits that do not start with a zero are what is written for their number. -/
theorem toDigits_ofDigitChars {ds : List Char} (h : Whole ds) :
    Nat.toDigits 10 (Nat.ofDigitChars 10 ds 0) = ds := by
  -- By induction from the last digit: it is the remainder, and the digits before it the quotient.
  induction ds using List.reverseRecOn with
  | nil => exact absurd rfl h.nonempty
  | append_singleton ds d ih =>
    obtain ⟨hlt, hchar⟩ := digitChar_of_isDigit (h.isDigit d (by simp))
    have hlast : Nat.toDigits 10 (d.toNat - '0'.toNat) = [d] := by
      rw [Nat.toDigits_of_lt_base hlt, hchar]
    rw [Nat.ofDigitChars_append, Nat.ofDigitChars_cons, Nat.ofDigitChars_nil]
    by_cases hempty : ds = []
    · subst hempty
      simpa using hlast
    · have hlong : ds ++ [d] ≠ ['0'] := by
        simp [List.append_eq_singleton_iff, hempty]
      have hhead : ds.head? ≠ some '0' := by
        rcases h.leading with heq | hhead
        · exact absurd heq hlong
        · rwa [List.head?_append_of_ne_nil _ hempty] at hhead
      have hwhole : Whole ds :=
        ⟨⟨hempty, fun c hc => h.isDigit c (List.mem_append_left _ hc)⟩, .inr hhead⟩
      have hdigits := ih hwhole
      have hpos : 0 < Nat.ofDigitChars 10 ds 0 := by
        refine Nat.pos_of_ne_zero fun hzero => hhead ?_
        rw [← hdigits, hzero, Nat.toDigits_zero]
        rfl
      rw [← Nat.toDigits_append_toDigits (by decide) hpos hlt, hdigits, hlast]

/-- A number that starts with a digit has no sign. -/
theorem readNumber_of_isDigit {c : Char} (hc : c.isDigit = true) (cs : List Char) :
    readNumber (c :: cs) = readUnsigned (c :: cs) := by
  unfold readNumber
  split
  · next heq =>
    obtain ⟨rfl, -⟩ := List.cons.inj heq
    exact absurd hc (by decide)
  · rfl

/-- A number starts with a digit. -/
theorem Whole.exists_cons {whole : List Char} (h : Whole whole) :
    ∃ d ds, whole = d :: ds ∧ d.isDigit = true := by
  cases whole with
  | nil => exact absurd rfl h.nonempty
  | cons d ds => exact ⟨d, ds, rfl, h.isDigit d List.mem_cons_self⟩

/-- The digits of a natural number are read as it. -/
theorem readNumber_nat {ds rest : List Char} (h : Whole ds) (hrest : Follows rest) :
    readNumber (ds ++ rest) = some (nat (Nat.ofDigitChars 10 ds 0), rest) := by
  have hread := readUnsigned_append h .none .none hrest
  obtain ⟨d, ds, rfl, hd⟩ := h.exists_cons
  rw [List.cons_append, readNumber_of_isDigit hd]
  simpa using hread

/-- Any other number is read as its text. -/
theorem readNumber_number {sign whole fraction exponent rest : List Char}
    (hsign : sign = [] ∨ sign = ['-']) (hwhole : Whole whole) (hfraction : Fraction fraction)
    (hexponent : Exponent exponent) (hmore : sign ≠ [] ∨ fraction ≠ [] ∨ exponent ≠ [])
    (hrest : Follows rest) :
    readNumber (sign ++ (whole ++ fraction ++ exponent) ++ rest) =
      some (number (sign ++ (whole ++ fraction ++ exponent)), rest) := by
  have hread := readUnsigned_append hwhole hfraction hexponent hrest
  rcases hsign with rfl | rfl
  · have hplain : ¬(fraction = [] ∧ exponent = []) := by
      tauto
    rw [if_neg hplain] at hread
    obtain ⟨d, ds, rfl, hd⟩ := hwhole.exists_cons
    simp only [List.nil_append, List.cons_append] at hread ⊢
    rw [readNumber_of_isDigit hd, hread]
  · by_cases hplain : fraction = [] ∧ exponent = []
    -- A natural number behind a minus is written anew, digit by digit.
    · rw [if_pos hplain] at hread
      obtain ⟨rfl, rfl⟩ := hplain
      simp only [List.append_nil, List.cons_append, List.nil_append] at hread ⊢
      simp only [readNumber, hread, toDigits_ofDigitChars hwhole]
    · rw [if_neg hplain] at hread
      simp only [List.cons_append, List.nil_append] at hread ⊢
      simp only [readNumber, hread]

/-! ## Reading strings -/

/-- Four hexadecimal digits are read as a code unit. -/
theorem readUnit_of_hex {a b c d : Char} {x y z u : Nat} (ha : Hex.value? a.toNat = some x)
    (hb : Hex.value? b.toNat = some y) (hc : Hex.value? c.toNat = some z)
    (hd : Hex.value? d.toNat = some u) (rest : List Char) :
    readUnit (a :: b :: c :: d :: rest) =
      some (UInt16.ofNat (((x * 16 + y) * 16 + z) * 16 + u), rest) := by
  rw [readUnit, ha, hb, hc, hd]

/-- The letters of escapes leave the one for units out. -/
theorem readEscape_letter {letter c : Char} (h : escapedChar? letter = some c) (rest : List Char) :
    readEscape (letter :: rest) = some (.escaped (UInt16.ofNat c.toNat), rest) := by
  unfold readEscape
  split
  · next heq => cases heq
  · next heq =>
    obtain ⟨rfl, -⟩ := List.cons.inj heq
    cases h
  · next heq =>
    obtain ⟨rfl, rfl⟩ := List.cons.inj heq
    rw [h]
    rfl

/-- A string is read up to its closing quote. -/
theorem readString_append {pieces : List Piece} {cs : List Char} (h : SpellsPieces pieces cs)
    {fuel : Nat} (hfuel : cs.length < fuel) (rest : List Char) :
    readString fuel (cs ++ '"' :: rest) = some (pieces, rest) := by
  induction h generalizing fuel with
  | nil =>
    obtain ⟨fuel, rfl⟩ := Nat.exists_eq_add_of_lt hfuel
    rfl
  | @raw c pieces cs hquote hslash hcontrol h ih =>
    obtain _ | fuel := fuel
    · -- There is more fuel than characters, so it never runs out.
      exact absurd hfuel (Nat.not_lt_zero _)
    · rw [List.cons_append, readString, ih (Nat.lt_of_succ_lt_succ hfuel)]
      · rfl
      · exact hquote
      · exact hslash
  | @letter letter c pieces cs hletter h ih =>
    obtain _ | fuel := fuel
    · exact absurd hfuel (Nat.not_lt_zero _)
    · simp only [List.length_cons] at hfuel
      simp only [List.cons_append, readString, readEscape_letter hletter,
        ih (show cs.length < fuel by omega), Option.map_some]
  | @unit a b c d x y z u pieces cs ha hb hc hd h ih =>
    obtain _ | fuel := fuel
    · exact absurd hfuel (Nat.not_lt_zero _)
    · simp only [List.length_cons] at hfuel
      simp only [List.cons_append, readString, readEscape, readUnit_of_hex ha hb hc hd,
        ih (show cs.length < fuel by omega), Option.map_some]

/-- No control character is written as it is. -/
theorem SpellsPieces.isSound {pieces : List Piece} {cs : List Char} (h : SpellsPieces pieces cs) :
    pieces.any Piece.isRawControl = false := by
  induction h with
  | nil => rfl
  | raw _ _ hcontrol _ ih => simpa [Piece.isRawControl, ih] using hcontrol
  | letter _ _ ih => simpa [Piece.isRawControl] using ih
  | unit _ _ _ _ _ ih => simpa [Piece.isRawControl] using ih

/-! ## Reading values -/

/-- What the reader makes of a text of a value, whatever stands behind it. A value takes fuel for
twice its length. -/
structure Reads (j : Json) (cs : List Char) : Prop where
  sound : j.isSound = true
  starts : ∃ c rest, cs = c :: rest ∧ isBlank c = false ∧ c ≠ ']'
  read : ∀ {fuel : Nat} {rest : List Char}, Follows rest → 2 * cs.length ≤ fuel →
    readValue fuel (cs ++ rest) = some (j, rest)

/-- What the reader makes of the items of an array. -/
structure ReadsItems (items : List Json) (cs : List Char) : Prop where
  sound : areSound items = true
  starts : ∀ rest, ∃ c rest', skipBlanks (cs ++ rest) = c :: rest' ∧ c ≠ ']'
  read : ∀ {fuel : Nat} (rest : List Char), 2 * cs.length < fuel →
    readItems fuel (cs ++ ']' :: rest) = some (items, rest)

/-- What the reader makes of the fields of an object. -/
structure ReadsFields (fields : List (List Piece × Json)) (cs : List Char) : Prop where
  sound : fieldsAreSound fields = true
  starts : ∀ rest, ∃ rest', skipBlanks (cs ++ rest) = '"' :: rest'
  read : ∀ {fuel : Nat} (rest : List Char), 2 * cs.length < fuel →
    readFields fuel (cs ++ '}' :: rest) = some (fields, rest)

/-- White space before a value does not matter. -/
theorem readValue_skipBlanks (fuel : Nat) (cs : List Char) :
    readValue fuel (skipBlanks cs) = readValue fuel cs := by
  cases fuel with
  | zero => rfl
  | succ fuel => rw [readValue, readValue, skipBlanks_skipBlanks]

/-- White space before the items of an array does not matter. -/
theorem readItems_skipBlanks (fuel : Nat) (cs : List Char) :
    readItems fuel (skipBlanks cs) = readItems fuel cs := by
  cases fuel with
  | zero => rfl
  | succ fuel => rw [readItems, readItems, readValue_skipBlanks]

/-- White space before the fields of an object does not matter. -/
theorem readFields_skipBlanks (fuel : Nat) (cs : List Char) :
    readFields fuel (skipBlanks cs) = readFields fuel cs := by
  cases fuel with
  | zero => rfl
  | succ fuel => rw [readFields, readFields, skipBlanks_skipBlanks]

/-- White space before a value does not matter, wherever it comes from. -/
theorem readValue_append {w : List Char} (hw : Blank w) (fuel : Nat) (cs : List Char) :
    readValue fuel (w ++ cs) = readValue fuel cs := by
  rw [← readValue_skipBlanks, skipBlanks_append hw, readValue_skipBlanks]

/-- A value whose first character tells what it is. -/
theorem Reads.of_cons {j : Json} {c : Char} {cs : List Char} (hsound : j.isSound = true)
    (hblank : isBlank c = false) (hbracket : c ≠ ']')
    (hread : ∀ fuel rest, Follows rest → 2 * cs.length < fuel →
      readValue (fuel + 1) (c :: (cs ++ rest)) = some (j, rest)) : Reads j (c :: cs) where
  sound := hsound
  starts := ⟨c, cs, rfl, hblank, hbracket⟩
  read := by
    intro fuel rest hrest hfuel
    simp only [List.length_cons] at hfuel
    obtain ⟨fuel, rfl⟩ : ∃ fuel', fuel = fuel' + 1 := ⟨fuel - 1, by omega⟩
    exact hread fuel rest hrest (by omega)

theorem reads_null : Reads null ['n', 'u', 'l', 'l'] :=
  .of_cons rfl (by decide) (by decide) fun fuel rest _ _ => rfl

theorem reads_true : Reads (bool true) ['t', 'r', 'u', 'e'] :=
  .of_cons rfl (by decide) (by decide) fun fuel rest _ _ => rfl

theorem reads_false : Reads (bool false) ['f', 'a', 'l', 's', 'e'] :=
  .of_cons rfl (by decide) (by decide) fun fuel rest _ _ => rfl

/-- A digit or a minus starts a number and nothing else. -/
theorem reads_of_readNumber {j : Json} {c : Char} {cs : List Char}
    (hc : c.isDigit = true ∨ c = '-') (hsound : j.isSound = true)
    (hread : ∀ rest, Follows rest → readNumber (c :: (cs ++ rest)) = some (j, rest)) :
    Reads j (c :: cs) := by
  have hother : ∀ d, d.isDigit = false → d ≠ '-' → c ≠ d := by
    rintro d hdigit hminus rfl
    rcases hc with hc | hc
    · exact absurd hc (by simp [hdigit])
    · exact hminus hc
  have hblank : isBlank c = false := by
    simp [isBlank, hother ' ' rfl (by decide), hother '\n' rfl (by decide),
      hother '\t' rfl (by decide), hother '\r' rfl (by decide)]
  refine .of_cons hsound hblank (hother ']' rfl (by decide)) fun fuel rest hrest _ => ?_
  rw [readValue, skipBlanks_cons hblank]
  -- All other values start with characters that are neither digits nor the minus.
  split
  · next heq => exact absurd (List.cons.inj heq).1 (hother 'n' rfl (by decide))
  · next heq => exact absurd (List.cons.inj heq).1 (hother 't' rfl (by decide))
  · next heq => exact absurd (List.cons.inj heq).1 (hother 'f' rfl (by decide))
  · next heq => exact absurd (List.cons.inj heq).1 (hother '"' rfl (by decide))
  · next heq => exact absurd (List.cons.inj heq).1 (hother '[' rfl (by decide))
  · next heq => exact absurd (List.cons.inj heq).1 (hother '{' rfl (by decide))
  · exact hread rest hrest

/-- Digits are read as a natural number. -/
theorem reads_nat {ds : List Char} (h : Whole ds) :
    Reads (nat (Nat.ofDigitChars 10 ds 0)) ds := by
  have hread : ∀ rest, Follows rest → readNumber (ds ++ rest) = _ :=
    fun rest => readNumber_nat h
  obtain ⟨d, ds, rfl, hd⟩ := h.exists_cons
  exact reads_of_readNumber (.inl hd) rfl hread

/-- A number that is not a natural one, in any of its spellings, is read as its text. -/
theorem reads_number {sign whole fraction exponent : List Char} (hsign : sign = [] ∨ sign = ['-'])
    (hwhole : Whole whole) (hfraction : Fraction fraction) (hexponent : Exponent exponent)
    (hmore : sign ≠ [] ∨ fraction ≠ [] ∨ exponent ≠ []) :
    Reads (number (sign ++ (whole ++ fraction ++ exponent)))
      (sign ++ (whole ++ fraction ++ exponent)) := by
  have hread : ∀ rest, Follows rest →
      readNumber (sign ++ (whole ++ fraction ++ exponent) ++ rest) = _ :=
    fun rest => readNumber_number hsign hwhole hfraction hexponent hmore
  rcases hsign with rfl | rfl
  · obtain ⟨d, ds, rfl, hd⟩ := hwhole.exists_cons
    exact reads_of_readNumber (.inl hd) rfl hread
  · exact reads_of_readNumber (.inr rfl) rfl hread

/-- Behind a quote a string is read up to the closing one. -/
theorem readValue_quote (fuel : Nat) (cs : List Char) :
    readValue (fuel + 1) ('"' :: cs) =
      (readString (cs.length + 1) cs).map fun (pieces, rest) => (str pieces, rest) := rfl

/-- A bracket may close at once; else items stand behind it. -/
theorem readValue_bracket (fuel : Nat) (cs : List Char) :
    readValue (fuel + 1) ('[' :: cs) =
      match skipBlanks cs with
      | ']' :: rest => some (arr [], rest)
      | rest => (readItems fuel rest).map fun (items, rest) => (arr items, rest) := rfl

/-- A brace may close at once; else fields stand behind it. -/
theorem readValue_brace (fuel : Nat) (cs : List Char) :
    readValue (fuel + 1) ('{' :: cs) =
      match skipBlanks cs with
      | '}' :: rest => some (obj [], rest)
      | rest => (readFields fuel rest).map fun (fields, rest) => (obj fields, rest) := rfl

/-- A string is read from any spelling of its pieces. -/
theorem reads_str {pieces : List Piece} {cs : List Char} (h : SpellsPieces pieces cs) :
    Reads (str pieces) ('"' :: (cs ++ ['"'])) := by
  refine .of_cons (by simp [isSound, h.isSound]) (by decide) (by decide)
    fun fuel rest _ _ => ?_
  have hlength : cs.length < (cs ++ ['"'] ++ rest).length + 1 := by
    simp only [List.length_append]
    omega
  have hread := readString_append h hlength rest
  simp only [List.append_assoc, List.singleton_append] at hread ⊢
  rw [readValue_quote, hread]
  rfl

/-- An array without items may hold white space. -/
theorem reads_emptyArr {w : List Char} (hw : Blank w) : Reads (arr []) ('[' :: (w ++ [']'])) := by
  refine .of_cons rfl (by decide) (by decide) fun fuel rest _ _ => ?_
  rw [readValue_bracket, List.append_assoc, skipBlanks_append hw]
  rfl

/-- An array is read once its items are. -/
theorem reads_arr {items : List Json} {cs : List Char} (h : ReadsItems items cs) :
    Reads (arr items) ('[' :: (cs ++ [']'])) := by
  refine .of_cons h.sound (by decide) (by decide) fun fuel rest _ hfuel => ?_
  have hshort : 2 * cs.length < fuel := by
    simp only [List.length_append] at hfuel
    omega
  have hread := h.read rest hshort
  obtain ⟨c, rest', hstart, hc⟩ := h.starts (']' :: rest)
  rw [← readItems_skipBlanks, hstart] at hread
  rw [readValue_bracket, List.append_assoc, List.singleton_append, hstart]
  -- No item starts with the bracket that closes an empty array.
  split
  · next heq => exact absurd (List.cons.inj heq).1 hc
  · rw [hread]
    rfl

/-- An object without fields may hold white space. -/
theorem reads_emptyObj {w : List Char} (hw : Blank w) : Reads (obj []) ('{' :: (w ++ ['}'])) := by
  refine .of_cons rfl (by decide) (by decide) fun fuel rest _ _ => ?_
  rw [readValue_brace, List.append_assoc, skipBlanks_append hw]
  rfl

/-- An object is read once its fields are. -/
theorem reads_obj {fields : List (List Piece × Json)} {cs : List Char}
    (h : ReadsFields fields cs) : Reads (obj fields) ('{' :: (cs ++ ['}'])) := by
  refine .of_cons h.sound (by decide) (by decide) fun fuel rest _ hfuel => ?_
  have hshort : 2 * cs.length < fuel := by
    simp only [List.length_append] at hfuel
    omega
  have hread := h.read rest hshort
  obtain ⟨rest', hstart⟩ := h.starts ('}' :: rest)
  rw [← readFields_skipBlanks, hstart] at hread
  rw [readValue_brace, List.append_assoc, List.singleton_append, hstart]
  split
  · next heq => exact absurd (List.cons.inj heq).1 (by decide)
  · rw [hread]
    rfl

/-! ## Items and fields -/

/-- Behind a value, blanks are passed over to the sign that ends it. -/
theorem Reads.read_up_to {j : Json} {cs w w' : List Char} {c : Char} (h : Reads j cs)
    (hw : Blank w) (hw' : Blank w') (hc : c = ',' ∨ c = ']' ∨ c = '}') {fuel : Nat}
    (hfuel : 2 * cs.length ≤ fuel) (rest : List Char) :
    readValue fuel (w ++ (cs ++ (w' ++ c :: rest))) = some (j, w' ++ c :: rest) ∧
      skipBlanks (w' ++ c :: rest) = c :: rest := by
  have hend : Follows (c :: rest) := by
    rintro d ⟨rfl⟩
    exact .inr hc
  have hblank : isBlank c = false := by
    rcases hc with rfl | rfl | rfl <;> decide
  rw [readValue_append hw, skipBlanks_append hw', skipBlanks_cons hblank]
  exact ⟨h.read (hw'.follows hend) hfuel, rfl⟩

/-- The text of an item does not begin with the end of an array. -/
theorem Reads.starts_items {item : Json} {cs w : List Char} (h : Reads item cs) (hw : Blank w)
    (rest : List Char) : ∃ c rest', skipBlanks (w ++ (cs ++ rest)) = c :: rest' ∧ c ≠ ']' := by
  obtain ⟨c, tail, rfl, hblank, hc⟩ := h.starts
  exact ⟨c, tail ++ rest, by rw [skipBlanks_append hw]; exact skipBlanks_cons hblank _, hc⟩

/-- The last item of an array, with white space around it. -/
theorem readsItems_last {item : Json} {w cs w' : List Char} (hw : Blank w) (h : Reads item cs)
    (hw' : Blank w') : ReadsItems [item] (w ++ (cs ++ w')) where
  sound := by simp [areSound, h.sound]
  starts rest := by simpa using h.starts_items hw (w' ++ rest)
  read := by
    intro fuel rest hfuel
    simp only [List.length_append] at hfuel
    obtain ⟨fuel, rfl⟩ : ∃ fuel', fuel = fuel' + 1 := ⟨fuel - 1, by omega⟩
    obtain ⟨hread, hclose⟩ := h.read_up_to (c := ']') hw hw' (by simp)
      (show 2 * cs.length ≤ fuel by omega) rest
    simp only [List.append_assoc, readItems, hread, hclose]

/-- One more item in front of others, with a comma between them. -/
theorem readsItems_more {item : Json} {items : List Json} {w cs w' rest : List Char}
    (hw : Blank w) (h : Reads item cs) (hw' : Blank w') (hrest : ReadsItems items rest) :
    ReadsItems (item :: items) (w ++ (cs ++ (w' ++ ',' :: rest))) where
  sound := by simp [areSound, h.sound, hrest.sound]
  starts tail := by simpa using h.starts_items hw (w' ++ ',' :: (rest ++ tail))
  read := by
    intro fuel tail hfuel
    simp only [List.length_append, List.length_cons] at hfuel
    obtain ⟨fuel, rfl⟩ : ∃ fuel', fuel = fuel' + 1 := ⟨fuel - 1, by omega⟩
    obtain ⟨hread, hcomma⟩ := h.read_up_to (c := ',') hw hw' (by simp)
      (show 2 * cs.length ≤ fuel by omega) (rest ++ ']' :: tail)
    have hothers := hrest.read tail (show 2 * rest.length < fuel by omega)
    simp only [List.append_assoc, List.cons_append, readItems, hread, hcomma, hothers,
      Option.map_some]

/-- The reader finds the parts of a field one after the other. -/
theorem Reads.read_field {name : List Piece} {value : Json} {w ns w₁ w₂ cs w' : List Char}
    {c : Char} (hw : Blank w) (hname : SpellsPieces name ns) (hw₁ : Blank w₁) (hw₂ : Blank w₂)
    (h : Reads value cs) (hw' : Blank w') (hc : c = ',' ∨ c = ']' ∨ c = '}') {fuel : Nat}
    (hfuel : 2 * cs.length ≤ fuel) (rest : List Char) :
    ∃ behindQuote behindName behindColon,
      skipBlanks (w ++ '"' :: (ns ++ '"' :: (w₁ ++ ':' :: (w₂ ++ (cs ++ (w' ++ c :: rest)))))) =
          '"' :: behindQuote ∧
        readString (behindQuote.length + 1) behindQuote = some (name, behindName) ∧
        skipBlanks behindName = ':' :: behindColon ∧
        readValue fuel behindColon = some (value, w' ++ c :: rest) ∧
        skipBlanks (w' ++ c :: rest) = c :: rest := by
  obtain ⟨hread, hclose⟩ := h.read_up_to hw₂ hw' hc hfuel rest
  have hname := readString_append hname
    (show ns.length < (ns ++ '"' :: (w₁ ++ ':' :: (w₂ ++ (cs ++ (w' ++ c :: rest))))).length + 1 by
      simp only [List.length_append]
      omega) (w₁ ++ ':' :: (w₂ ++ (cs ++ (w' ++ c :: rest))))
  refine ⟨_, _, _, ?_, hname, ?_, hread, hclose⟩
  · rw [skipBlanks_append hw]
    exact skipBlanks_cons (by decide) _
  · rw [skipBlanks_append hw₁]
    exact skipBlanks_cons (by decide) _

/-- The last field of an object, with white space around name and value. -/
theorem readsFields_last {name : List Piece} {value : Json} {w ns w₁ w₂ cs w' : List Char}
    (hw : Blank w) (hname : SpellsPieces name ns) (hw₁ : Blank w₁) (hw₂ : Blank w₂)
    (h : Reads value cs) (hw' : Blank w') :
    ReadsFields [(name, value)]
      (w ++ '"' :: (ns ++ '"' :: (w₁ ++ ':' :: (w₂ ++ (cs ++ w'))))) where
  sound := by simp [fieldsAreSound, hname.isSound, h.sound]
  starts rest := by
    rw [List.append_assoc, skipBlanks_append hw]
    exact ⟨_, skipBlanks_cons (by decide) _⟩
  read := by
    intro fuel rest hfuel
    simp only [List.length_append, List.length_cons] at hfuel
    obtain ⟨fuel, rfl⟩ : ∃ fuel', fuel = fuel' + 1 := ⟨fuel - 1, by omega⟩
    obtain ⟨_, _, _, hquote, hstring, hcolon, hvalue, hclose⟩ :=
      h.read_field hw hname hw₁ hw₂ hw' (c := '}') (by simp)
        (show 2 * cs.length ≤ fuel by omega) rest
    simp only [List.append_assoc, List.cons_append, readFields, hquote, hstring, hcolon, hvalue,
      hclose]

/-- One more field in front of others, with a comma between them. -/
theorem readsFields_more {name : List Piece} {value : Json} {fields : List (List Piece × Json)}
    {w ns w₁ w₂ cs w' rest : List Char} (hw : Blank w) (hname : SpellsPieces name ns)
    (hw₁ : Blank w₁) (hw₂ : Blank w₂) (h : Reads value cs) (hw' : Blank w')
    (hrest : ReadsFields fields rest) :
    ReadsFields ((name, value) :: fields)
      (w ++ '"' :: (ns ++ '"' :: (w₁ ++ ':' :: (w₂ ++ (cs ++ (w' ++ ',' :: rest)))))) where
  sound := by simp [fieldsAreSound, hname.isSound, h.sound, hrest.sound]
  starts tail := by
    rw [List.append_assoc, skipBlanks_append hw]
    exact ⟨_, skipBlanks_cons (by decide) _⟩
  read := by
    intro fuel tail hfuel
    simp only [List.length_append, List.length_cons] at hfuel
    obtain ⟨fuel, rfl⟩ : ∃ fuel', fuel = fuel' + 1 := ⟨fuel - 1, by omega⟩
    obtain ⟨_, _, _, hquote, hstring, hcolon, hvalue, hcomma⟩ :=
      h.read_field hw hname hw₁ hw₂ hw' (c := ',') (by simp)
        (show 2 * cs.length ≤ fuel by omega) (rest ++ '}' :: tail)
    have hothers := hrest.read tail (show 2 * rest.length < fuel by omega)
    simp only [List.append_assoc, List.cons_append, readFields, hquote, hstring, hcolon, hvalue,
      hcomma, hothers, Option.map_some]

/-- The reader takes a text of a value for that value. -/
theorem Spells.reads {j : Json} {cs : List Char} (h : Spells j cs) : Reads j cs := by
  -- By induction on the text; items and fields are read from the last one on.
  refine @Spells.rec (fun j cs _ => Reads j cs) (fun items cs _ => ReadsItems items cs)
    (fun fields cs _ => ReadsFields fields cs) reads_null reads_true reads_false ?nat ?number ?str
    ?emptyArr ?arr ?emptyObj ?obj ?last ?more ?lastField ?moreFields j cs h
  case nat => exact reads_nat
  case number => exact reads_number
  case str => exact reads_str
  case emptyArr => exact reads_emptyArr
  case arr => exact fun _ => reads_arr
  case emptyObj => exact reads_emptyObj
  case obj => exact fun _ => reads_obj
  case last => exact fun hw _ hw' => fun h => readsItems_last hw h hw'
  case more => exact fun hw _ hw' _ h hrest => readsItems_more hw h hw' hrest
  case lastField =>
    exact fun hw hname hw₁ hw₂ _ hw' h => readsFields_last hw hname hw₁ hw₂ h hw'
  case moreFields =>
    exact fun hw hname hw₁ hw₂ _ hw' _ h hrest => readsFields_more hw hname hw₁ hw₂ h hw' hrest

/-- A text holds one value, with blanks before and behind it. -/
def Spelled (j : Json) (text : String) : Prop :=
  ∃ w cs w', Blank w ∧ Spells j cs ∧ Blank w' ∧ text.toList = w ++ (cs ++ w')

/-- A text of a value is parsed to that value. -/
theorem parse_of_spelled {j : Json} {text : String} (h : Spelled j text) :
    parse text.toList = some j ∧ j.isSound = true := by
  obtain ⟨w, cs, w', hw, hspells, hw', heq⟩ := h
  have hreads := hspells.reads
  have hend : Follows ([] : List Char) := by
    rintro c ⟨⟩
  have hfollows : Follows w' := by simpa using hw'.follows hend
  -- The fuel is measured by the whole text, of which the value is a part.
  have hlength : 2 * cs.length ≤ 2 * (w ++ (cs ++ w')).length + 1 := by
    simp only [List.length_append]
    omega
  have hread := hreads.read hfollows hlength
  rw [← readValue_append hw] at hread
  have hempty : skipBlanks w' = [] := by simpa [skipBlanks] using skipBlanks_append hw' []
  refine ⟨?_, hreads.sound⟩
  rw [parse, heq, hread]
  simp [hempty]

/-! ## What the printer writes -/

/-- The characters that are printed for a value are a text of it. -/
def Printed (j : Json) : Prop := Spells j j.print

theorem blank_nil : Blank [] := fun _ hc => absurd hc List.not_mem_nil

/-- The digits of a number do not start with a zero, but for those of zero itself. -/
theorem whole_toDigits (n : Nat) : Whole (Nat.toDigits 10 n) := by
  refine ⟨⟨Nat.toDigits_ne_nil, fun c hc => Nat.isDigit_of_mem_toDigits (by decide) (by decide) hc⟩,
    ?_⟩
  rcases Nat.eq_zero_or_pos n with rfl | hpos
  · exact .inl (Nat.toDigits_zero 10)
  · refine .inr ?_
    -- By induction on the number: unless it is small, the first digit is that of the quotient.
    induction n using Nat.strongRecOn with
    | ind n ih =>
      by_cases hsmall : n < 10
      · rw [Nat.toDigits_of_lt_base hsmall]
        interval_cases n <;> decide
      · rw [Nat.toDigits_of_base_le (by decide) (Nat.le_of_not_lt hsmall),
          List.head?_append_of_ne_nil _ Nat.toDigits_ne_nil]
        exact ih (n / 10) (by omega) (by omega)

theorem printed_null : Printed null := .null

/-- A number is printed by its digits. -/
theorem printed_nat (n : Nat) : Printed (nat n) := by
  have h := Spells.nat (whole_toDigits n)
  rwa [Nat.ofDigitChars_ten_toDigits] at h

/-- Printed items are a text of the items, up to the closing bracket. -/
theorem spellsItems_printItems (item : Json) (items : List Json)
    (h : ∀ j ∈ item :: items, Printed j) :
    ∃ cs, SpellsItems (item :: items) cs ∧ item.print ++ printItems items = cs ++ [']'] := by
  induction items generalizing item with
  | nil =>
    refine ⟨_, .last blank_nil (h item List.mem_cons_self) blank_nil, ?_⟩
    simp [printItems]
  | cons next items ih =>
    obtain ⟨hitem, hrest⟩ := List.forall_mem_cons.mp h
    obtain ⟨cs, hspells, heq⟩ := ih next hrest
    refine ⟨_, .more blank_nil hitem blank_nil hspells, ?_⟩
    simp [printItems, heq]

/-- An array is printed item by item, with commas between them. -/
theorem printed_arr {items : List Json} (h : ∀ j ∈ items, Printed j) : Printed (arr items) := by
  cases items with
  | nil => exact .emptyArr blank_nil
  | cons item items =>
    obtain ⟨cs, hspells, heq⟩ := spellsItems_printItems item items h
    rw [Printed, print, List.cons_append, heq]
    exact .arr hspells

/-- A text that needs no escapes. -/
def NeedsNoEscape (name : String) : Prop :=
  ∀ c ∈ name.toList, c ≠ '"' ∧ c ≠ '\\' ∧ 0x20 ≤ c.toNat

instance (name : String) : Decidable (NeedsNoEscape name) :=
  List.decidableBAll (fun c => c ≠ '"' ∧ c ≠ '\\' ∧ 0x20 ≤ c.toNat) name.toList

/-- A name that needs no escape is spelled by its own characters. -/
theorem spellsPieces_ofString {name : String} (h : NeedsNoEscape name) :
    SpellsPieces (Piece.ofString name) name.toList := by
  unfold NeedsNoEscape at h
  unfold Piece.ofString
  generalize name.toList = cs at h
  induction cs with
  | nil => exact .nil
  | cons c cs ih =>
    obtain ⟨⟨hquote, hslash, hcontrol⟩, hrest⟩ := List.forall_mem_cons.mp h
    exact .raw hquote hslash hcontrol (ih hrest)

theorem printString_ofString (name : String) :
    printString (Piece.ofString name) = '"' :: (name.toList ++ ['"']) := by
  simp [printString, Piece.ofString, List.flatMap_map, printPiece]

/-- Printed fields are a text of the fields, up to the closing brace. -/
theorem spellsFields_printFields (field : String × Json) (fields : List (String × Json))
    (h : ∀ f ∈ field :: fields, NeedsNoEscape f.1 ∧ Printed f.2) :
    ∃ cs, SpellsFields ((field :: fields).map fun f => (Piece.ofString f.1, f.2)) cs ∧
      printString (Piece.ofString field.1) ++ ':' :: field.2.print ++
        printFields (fields.map fun f => (Piece.ofString f.1, f.2)) = cs ++ ['}'] := by
  induction fields generalizing field with
  | nil =>
    obtain ⟨hname, hvalue⟩ := h field List.mem_cons_self
    refine ⟨_, .last blank_nil (spellsPieces_ofString hname) blank_nil blank_nil hvalue
      blank_nil, ?_⟩
    simp [printFields, printString_ofString]
  | cons next fields ih =>
    obtain ⟨⟨hname, hvalue⟩, hrest⟩ := List.forall_mem_cons.mp h
    obtain ⟨cs, hspells, heq⟩ := ih next hrest
    refine ⟨_, .more blank_nil (spellsPieces_ofString hname) blank_nil blank_nil hvalue blank_nil
      hspells, ?_⟩
    simp only [List.map_cons, printFields, printString_ofString] at heq ⊢
    simp [← heq]

/-- An object is printed field by field if no name needs an escape. -/
theorem printed_obj {fields : List (String × Json)}
    (h : ∀ f ∈ fields, NeedsNoEscape f.1 ∧ Printed f.2) :
    Printed (obj (fields.map fun f => (Piece.ofString f.1, f.2))) := by
  cases fields with
  | nil => exact .emptyObj blank_nil
  | cons field fields =>
    obtain ⟨cs, hspells, heq⟩ := spellsFields_printFields field fields h
    rw [Printed, List.map_cons, print, List.cons_append, List.cons_append, heq]
    exact .obj hspells

/-- What is written for a value is a text of it. -/
theorem Printed.spelled {j : Json} (h : Printed j) : Spelled j j.render :=
  ⟨[], j.print, [], blank_nil, h, blank_nil, by simp [render]⟩

end CommitPipeline.Json
