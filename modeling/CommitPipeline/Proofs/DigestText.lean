import CommitPipeline.Digest
import Mathlib.Data.List.Basic
import Mathlib.Data.List.Induction

/-!
# The texts of digests

A digest is written as 64 digits of base sixteen. Read back are the texts of 64 such digits, in
either case, and no others: a text is read byte by byte, so that a character outside ASCII is as
wrong as any other that is no digit. Of the rules that a text can break, the first one counts.

The module introduces:

* `Hex.alphabet`, `Hex.IsDigit` — the digits in either case, as characters and as bytes;
* `Hex.readPairs_cases` — what pairs of digits are read as, or the first byte that is no digit;
* `Digest.FirstFlaw` — the first rule that the bytes of a text break;
* `Digest.ofString_exact` — which texts are read, as what, and how all others are refused.
-/

namespace CommitPipeline

/-! ## Bytes of a text -/

/-- The loop takes the bytes from the front one by one and collects them in reverse. -/
theorem toList_loop (bytes : ByteArray) (i : Nat) (front : List UInt8) :
    ByteArray.toList.loop bytes i front = front.reverse ++ bytes.data.toList.drop i := by
  fun_induction ByteArray.toList.loop bytes i front with
  | case1 i front hi ih =>
    have hi : i < bytes.data.toList.length := hi
    have hget : bytes.get! i = bytes.data.toList[i] := getElem!_pos bytes.data i hi
    rw [ih, hget, List.reverse_cons, List.append_assoc, List.singleton_append,
      List.getElem_cons_drop]
  | case2 i front hi =>
    have hi : bytes.data.toList.length ≤ i := Nat.le_of_not_lt hi
    rw [List.drop_eq_nil_of_le hi, List.append_nil]

/-- The bytes of a text are those of its characters, one after the other. -/
theorem toList_toUTF8 (text : String) :
    text.toUTF8.toList = text.toList.flatMap String.utf8EncodeChar := by
  rw [String.toUTF8_eq_toByteArray, ← String.utf8Encode_toList, ByteArray.toList, toList_loop]
  exact List.toList_data_toByteArray

namespace Hex

/-- The digits of base sixteen, in either case. -/
def alphabet : List Char :=
  ['0', '1', '2', '3', '4', '5', '6', '7', '8', '9', 'a', 'b', 'c', 'd', 'e', 'f',
    'A', 'B', 'C', 'D', 'E', 'F']

/-- The byte is the code of a digit. -/
def IsDigit (b : UInt8) : Prop := ∃ c ∈ alphabet, c.toNat = b.toNat

/-- The lower-case character that a byte is the code of. -/
def lower (b : UInt8) : Char := (Char.ofNat b.toNat).toLower

/-- A digit of the alphabet has a value, and the digit of the value is its lower-case form. -/
theorem value?_of_mem {c : Char} (hc : c ∈ alphabet) :
    ∃ v < 16, value? c.toNat = some v ∧ digit v = c.toLower := by
  -- Over the members of the list: characters are too many to go through them all.
  have hall : alphabet.all
      fun c => decide (∃ v : Nat, v < 16 ∧ value? c.toNat = some v ∧ digit v = c.toLower) := by
    decide
  exact of_decide_eq_true (List.all_eq_true.1 hall c hc)

/-- A code that no digit of the alphabet has is no digit's code. -/
theorem value?_eq_none {n : Nat} (hn : ∀ c ∈ alphabet, c.toNat ≠ n) : value? n = none := by
  -- No digit has a code above that of the letter f.
  have hall : ∀ n ≤ 0x66, n ∉ alphabet.map Char.toNat → value? n = none := by decide +kernel
  by_cases hle : n ≤ 0x66
  · refine hall n hle fun hmem => ?_
    obtain ⟨c, hc, hcode⟩ := List.mem_map.1 hmem
    exact hn c hc hcode
  · rw [value?, if_neg (by omega), if_neg (by omega), if_neg (by omega)]

/-- To lower a byte is to lower the character it is the code of. -/
theorem lower_eq {b : UInt8} {c : Char} (hcode : c.toNat = b.toNat) : lower b = c.toLower := by
  rw [lower, ← hcode, Char.ofNat_toNat]

/-- A byte that is the code of a digit has its value, and every other byte has none. -/
theorem value?_cases (b : UInt8) :
    (IsDigit b ∧ ∃ v < 16, value? b.toNat = some v ∧ digit v = lower b) ∨
      (¬ IsDigit b ∧ value? b.toNat = none) := by
  by_cases hb : IsDigit b
  · obtain ⟨c, hc, hcode⟩ := hb
    have hvalue := value?_of_mem hc
    rw [hcode, ← lower_eq hcode] at hvalue
    exact .inl ⟨⟨c, hc, hcode⟩, hvalue⟩
  · exact .inr ⟨hb, value?_eq_none fun c hc hcode => hb ⟨c, hc, hcode⟩⟩

/-- The value is read back from the digit that is written for it. -/
theorem value?_digit : ∀ v < 16, value? (UInt8.ofNat (digit v).toNat).toNat = some v := by
  decide

@[simp]
theorem digits_cons (b : UInt8) (rest : Bytes) : digits (b :: rest) = pair b ++ digits rest :=
  List.flatMap_cons

/-- A byte is read back from its two digits. -/
theorem pair_ofNat {hi lo : Nat} (hhi : hi < 16) (hlo : lo < 16) :
    pair (UInt8.ofNat (16 * hi + lo)) = [digit hi, digit lo] := by
  have hbyte : (UInt8.ofNat (16 * hi + lo)).toNat = 16 * hi + lo := by
    rw [UInt8.toNat_ofNat']
    omega
  rw [pair, hbyte, show (16 * hi + lo) / 16 = hi by omega, show (16 * hi + lo) % 16 = lo by omega]

/-- Pairs of digits are read as the bytes they write. Of the bytes that are no digits the first one
is named, with its position. -/
theorem readPairs_cases (position : Nat) {text : Bytes} (heven : text.length % 2 = 0) :
    (∃ bytes, readPairs position text = .ok bytes ∧ (∀ b ∈ text, IsDigit b) ∧
        digits bytes = text.map lower) ∨
      ∃ front byte rest, text = front ++ byte :: rest ∧ (∀ b ∈ front, IsDigit b) ∧
        ¬ IsDigit byte ∧
        readPairs position text = .error (.notDigit byte (position + front.length)) := by
  -- By induction on the pairs, as they are read; `position` is that of the pair to be read next.
  induction text using List.twoStepInduction generalizing position with
  | nil => exact .inl ⟨[], rfl, nofun, rfl⟩
  | singleton a => cases heven
  | cons_cons a b rest ih _ =>
    have heven : rest.length % 2 = 0 := by
      rw [List.length_cons, List.length_cons] at heven
      omega
    rw [readPairs]
    obtain ⟨ha, hi, hlt, hhi, hdigit⟩ | ⟨ha, hnone⟩ := value?_cases a
    swap
    · rw [hnone]
      exact .inr ⟨[], a, b :: rest, rfl, nofun, ha, rfl⟩
    obtain ⟨hb, lo, hlt', hlo, hdigit'⟩ | ⟨hb, hnone⟩ := value?_cases b
    swap
    · rw [hhi, hnone]
      exact .inr ⟨[a], b, rest, rfl, by simpa using ha, hb, rfl⟩
    rw [hhi, hlo]
    obtain ⟨bytes, hread, hdigits, htext⟩ | ⟨front, byte, behind, rfl, hfront, hbyte, hread⟩ :=
      ih (position + 2) heven
    · refine .inl ⟨_, by rw [hread], ?_, ?_⟩
      · simpa [ha, hb] using hdigits
      · rw [digits_cons, pair_ofNat hlt hlt', hdigit, hdigit', htext]
        rfl
    · refine .inr ⟨a :: b :: front, byte, behind, rfl, ?_, hbyte, ?_⟩
      · simpa [ha, hb] using hfront
      · rw [hread, List.length_cons, List.length_cons, Nat.add_assoc, Nat.add_comm 2]

/-- What was written for bytes is read as these bytes. -/
theorem readPairs_digits (position : Nat) (bytes : Bytes) :
    readPairs position ((digits bytes).map fun c => UInt8.ofNat c.toNat) = .ok bytes := by
  induction bytes generalizing position with
  | nil => rfl
  | cons b rest ih =>
    have hb := b.toNat_lt
    have hhi := value?_digit (b.toNat / 16) (by omega)
    have hlo := value?_digit (b.toNat % 16) (by omega)
    have hbyte : 16 * (b.toNat / 16) + b.toNat % 16 = b.toNat := Nat.div_add_mod _ _
    rw [digits_cons, pair]
    simp only [List.cons_append, List.nil_append, List.map_cons, readPairs, hhi, hlo, ih, hbyte,
      UInt8.ofNat_toNat]

/-! ### Digits among characters -/

theorem toNat_of_mem {c : Char} (hc : c ∈ alphabet) : c.toNat < 0x80 := by
  have hall : alphabet.all fun c => c.toNat < 0x80 := by decide
  exact of_decide_eq_true (List.all_eq_true.1 hall c hc)

/-- A digit is a character of one byte. -/
theorem utf8EncodeChar_of_mem {c : Char} (hc : c ∈ alphabet) :
    String.utf8EncodeChar c = [UInt8.ofNat c.toNat] := by
  have hlt := toNat_of_mem hc
  exact String.utf8EncodeChar_eq_singleton (Char.utf8Size_eq_one_iff.2 (Nat.le_of_lt_succ hlt))

theorem toNat_code {c : Char} (hc : c ∈ alphabet) : c.toNat = (UInt8.ofNat c.toNat).toNat := by
  have hlt := toNat_of_mem hc
  rw [UInt8.toNat_ofNat', Nat.mod_eq_of_lt (by omega)]

/-- A digit is a character of its own in the bytes of a text. -/
theorem IsDigit.isUTF8FirstByte {b : UInt8} (hb : IsDigit b) : b.IsUTF8FirstByte := by
  have hall : ∀ n < 0x80, (UInt8.ofNat n).IsUTF8FirstByte := by decide
  obtain ⟨c, hc, hcode⟩ := hb
  have hfirst := hall c.toNat (toNat_of_mem hc)
  rwa [hcode, UInt8.ofNat_toNat] at hfirst

/-- Only the digits among the characters are written with bytes that are codes of digits. -/
theorem isDigit_utf8EncodeChar_iff {c : Char} :
    (∀ b ∈ String.utf8EncodeChar c, IsDigit b) ↔ c ∈ alphabet := by
  constructor
  · intro hbytes
    -- A character of several bytes goes on with a byte that no character starts with.
    have hsingle : c.utf8Size = 1 := by
      by_contra hmore
      have hpos := c.utf8Size_pos
      have hsecond : 1 < (String.utf8EncodeChar c).length := by
        rw [String.length_utf8EncodeChar]
        omega
      have hfirst := (hbytes _ (List.getElem_mem hsecond)).isUTF8FirstByte
      exact absurd (UInt8.isUTF8FirstByte_getElem_utf8EncodeChar.1 hfirst) Nat.one_ne_zero
    obtain ⟨d, hd, hcode⟩ : IsDigit c.val.toUInt8 := by
      apply hbytes
      rw [String.utf8EncodeChar_eq_singleton hsingle]
      exact List.mem_singleton_self _
    have hle : c.val.toNat ≤ 0x7f := Char.utf8Size_eq_one_iff.1 hsingle
    rw [UInt32.toNat_toUInt8, Nat.mod_eq_of_lt (by omega)] at hcode
    rwa [← Char.toNat_inj.1 hcode]
  · intro hc
    rw [utf8EncodeChar_of_mem hc, List.forall_mem_singleton]
    exact ⟨c, hc, toNat_code hc⟩

/-- The bytes of a text are digits exactly if its characters are: no part of a longer character is
a digit's code. -/
theorem isDigit_toUTF8_iff {text : String} :
    (∀ b ∈ text.toUTF8.toList, IsDigit b) ↔ ∀ c ∈ text.toList, c ∈ alphabet := by
  rw [toList_toUTF8, List.forall_mem_flatMap]
  exact forall₂_congr fun _ _ => isDigit_utf8EncodeChar_iff

/-- The bytes of digits are their codes. -/
theorem toUTF8_of_digits {text : String} (hdigits : ∀ c ∈ text.toList, c ∈ alphabet) :
    text.toUTF8.toList = text.toList.map fun c => UInt8.ofNat c.toNat := by
  rw [toList_toUTF8, List.map_eq_flatMap]
  exact List.flatMap_congr fun c hc => utf8EncodeChar_of_mem (hdigits c hc)

/-- For digits it is the same to lower the bytes or the text. -/
theorem map_lower_toUTF8 {text : String} (hdigits : ∀ c ∈ text.toList, c ∈ alphabet) :
    text.toUTF8.toList.map lower = text.toLower.toList := by
  show _ = (text.map Char.toLower).toList
  rw [toUTF8_of_digits hdigits, List.map_map, String.toList_map]
  exact List.map_congr_left fun c hc => lower_eq (toNat_code (hdigits c hc))

/-- A text of digits has as many bytes as characters. -/
theorem length_toUTF8 {text : String} (hdigits : ∀ c ∈ text.toList, c ∈ alphabet) :
    text.toUTF8.toList.length = text.length := by
  rw [toUTF8_of_digits hdigits, List.length_map, String.length_toList]

/-- Only digits are written. -/
theorem digits_subset (bytes : Bytes) : ∀ c ∈ digits bytes, c ∈ alphabet := by
  have hdigit : ∀ v < 16, digit v ∈ alphabet := by decide
  intro c hc
  obtain ⟨b, -, hb⟩ := List.mem_flatMap.1 hc
  have hlt := b.toNat_lt
  obtain rfl | rfl : c = digit (b.toNat / 16) ∨ c = digit (b.toNat % 16) := by simpa [pair] using hb
  · exact hdigit _ (by omega)
  · exact hdigit _ (by omega)

/-- Every byte is written as two digits. -/
theorem length_digits (bytes : Bytes) : (digits bytes).length = 2 * bytes.length := by
  induction bytes with
  | nil => rfl
  | cons b rest ih =>
    rw [digits_cons, List.length_append, ih]
    simp only [pair, List.length_cons, List.length_nil]
    omega

end Hex

namespace Digest

/-- The first rule that the bytes of a text break: their number is even, they are digits, and there
are 64 of them. -/
inductive FirstFlaw (text : Bytes) : TextError → Prop where
  /-- The number of bytes is odd. -/
  | oddLength (hodd : text.length % 2 = 1) : FirstFlaw text (.notHex .oddLength)
  /-- The first byte that is no digit stands at a position counted from zero. -/
  | notDigit (heven : text.length % 2 = 0) {byte : UInt8} {position : Nat}
      (hat : text[position]? = some byte) (hbyte : ¬ Hex.IsDigit byte)
      (hfront : ∀ b ∈ text.take position, Hex.IsDigit b) :
      FirstFlaw text (.notHex (.notDigit byte position))
  /-- The bytes are digits, two for every byte, but not for 32 bytes. -/
  | wrongLength (heven : text.length % 2 = 0) (hdigits : ∀ b ∈ text, Hex.IsDigit b)
      (hlength : text.length ≠ 64) : FirstFlaw text (.wrongLength text.length)

variable {text : Bytes}

/-- In front of the first byte that is no digit there is no other one. -/
theorem le_of_first {p q : Nat} {byte : UInt8} (hat : text[p]? = some byte)
    (hbyte : ¬ Hex.IsDigit byte) (hfront : ∀ b ∈ text.take q, Hex.IsDigit b) : q ≤ p := by
  by_contra hlt
  apply hbyte
  apply hfront
  exact List.mem_of_getElem? (by rwa [List.getElem?_take_of_lt (Nat.lt_of_not_le hlt)])

/-- A text has one first flaw. -/
theorem FirstFlaw.unique {e e' : TextError} (he : FirstFlaw text e) (he' : FirstFlaw text e') :
    e = e' := by
  cases he with
  | oddLength hodd =>
    cases he' with
    | oddLength => rfl
    | notDigit heven | wrongLength heven => omega
  | notDigit heven hat hbyte hfront =>
    cases he' with
    | oddLength hodd => omega
    | notDigit _ hat' hbyte' hfront' =>
      obtain rfl := Nat.le_antisymm (le_of_first hat' hbyte' hfront)
        (le_of_first hat hbyte hfront')
      rw [Option.some.inj (hat.symm.trans hat')]
    | wrongLength _ hdigits => exact absurd (hdigits _ (List.mem_of_getElem? hat)) hbyte
  | wrongLength heven hdigits =>
    cases he' with
    | oddLength hodd => omega
    | notDigit _ hat hbyte => exact absurd (hdigits _ (List.mem_of_getElem? hat)) hbyte
    | wrongLength => rfl

/-- A text of the right length has a flaw only if some character is no digit. -/
theorem FirstFlaw.not_digits {e : TextError} (he : FirstFlaw text e) (hlength : text.length = 64) :
    ¬ ∀ b ∈ text, Hex.IsDigit b := by
  intro hdigits
  cases he with
  | oddLength hodd => omega
  | notDigit _ hat hbyte => exact hbyte (hdigits _ (List.mem_of_getElem? hat))
  | wrongLength _ _ hne => exact hne hlength

/-- A text given by its bytes is read, if these are 64 digits, or refused for the first rule that
they break. -/
theorem ofHex_cases (text : Bytes) :
    (∃ d, ofHex text = .ok d ∧ text.length = 64 ∧ (∀ b ∈ text, Hex.IsDigit b) ∧
        Hex.digits d.bytes = text.map Hex.lower) ∨
      ∃ e, ofHex text = .error e ∧ FirstFlaw text e := by
  obtain heven | hodd := Nat.mod_two_eq_zero_or_one text.length
  swap
  · exact .inr ⟨_, by rw [ofHex, Hex.decode, if_pos hodd], .oddLength hodd⟩
  have hdecode : Hex.decode text = Hex.readPairs 0 text := if_neg (by omega)
  obtain ⟨bytes, hread, hdigits, htext⟩ | ⟨front, byte, rest, htext, hfront, hbyte, hread⟩ :=
    Hex.readPairs_cases 0 heven
  · -- Half as many bytes as digits.
    have hhalf : text.length = 2 * bytes.length := by
      rw [← Hex.length_digits, htext, List.length_map]
    by_cases hlength : bytes.length = 32
    · refine .inl ⟨⟨bytes, hlength⟩, ?_, by omega, hdigits, htext⟩
      rw [ofHex, hdecode, hread]
      exact dif_pos hlength
    · refine .inr ⟨_, ?_, .wrongLength heven hdigits (by omega)⟩
      rw [ofHex, hdecode, hread]
      exact dif_neg hlength
  · refine .inr ⟨_, by rw [ofHex, hdecode, hread], .notDigit heven ?_ hbyte ?_⟩
    · rw [htext, Nat.zero_add, List.getElem?_append_right (Nat.le_refl _), Nat.sub_self]
      rfl
    · rwa [htext, Nat.zero_add, List.take_left]

/-- A text is refused exactly for its first flaw. -/
theorem ofHex_eq_error_iff {e : TextError} : ofHex text = .error e ↔ FirstFlaw text e := by
  obtain ⟨d, hread, hlength, hdigits, -⟩ | ⟨e', hread, hflaw⟩ := ofHex_cases text
  · rw [hread]
    exact iff_of_false nofun fun hflaw => hflaw.not_digits hlength hdigits
  · rw [hread, Except.error.injEq]
    exact ⟨fun heq => heq ▸ hflaw, hflaw.unique⟩

/-- Texts of 64 digits are read, in either case, as the digest that is written with the same digits
in lower case. Every other text is refused for the first rule that its bytes break, and the text of
a digest is read as this digest. -/
theorem ofString_exact (text : String) :
    ((∃ d, ofString text = .ok d) ↔
        text.length = 64 ∧ ∀ c ∈ text.toList, c ∈ Hex.alphabet) ∧
      (∀ d, ofString text = .ok d → d.hex = text.toLower) ∧
      (∀ e, ofString text = .error e ↔ FirstFlaw text.toUTF8.toList e) ∧
      ∀ d : Digest, ofString d.hex = .ok d := by
  refine ⟨⟨?_, ?_⟩, ?_, fun e => ofHex_eq_error_iff, ?_⟩
  · rintro ⟨d, hd⟩
    obtain ⟨-, -, hlength, hdigits, -⟩ | ⟨e, he, -⟩ := ofHex_cases text.toUTF8.toList
    · rw [Hex.isDigit_toUTF8_iff] at hdigits
      rw [← Hex.length_toUTF8 hdigits]
      exact ⟨hlength, hdigits⟩
    · cases hd.symm.trans he
  · rintro ⟨hlength, hdigits⟩
    obtain ⟨d, hd, -⟩ | ⟨e, -, hflaw⟩ := ofHex_cases text.toUTF8.toList
    · exact ⟨d, hd⟩
    · rw [← Hex.length_toUTF8 hdigits] at hlength
      exact absurd (Hex.isDigit_toUTF8_iff.2 hdigits) (hflaw.not_digits hlength)
  · -- What is read is written with the same digits, in lower case.
    intro d hd
    obtain ⟨d', hd', -, hdigits, htext⟩ | ⟨e, he, -⟩ := ofHex_cases text.toUTF8.toList
    · obtain rfl : d' = d := Except.ok.inj (hd'.symm.trans hd)
      rw [hex, Hex.encode, htext, Hex.map_lower_toUTF8 (Hex.isDigit_toUTF8_iff.1 hdigits),
        String.ofList_toList]
    · cases hd.symm.trans he
  · intro d
    -- The text of a digest consists of digits, an even number of them.
    have hdigits : ∀ c ∈ d.hex.toList, c ∈ Hex.alphabet := by
      rw [hex, Hex.encode, String.toList_ofList]
      exact Hex.digits_subset d.bytes
    have heven : (d.hex.toUTF8.toList).length % 2 ≠ 1 := by
      rw [Hex.length_toUTF8 hdigits, hex, Hex.encode, String.length_ofList, Hex.length_digits]
      omega
    rw [ofString, ofHex, Hex.decode, if_neg heven, Hex.toUTF8_of_digits hdigits, hex, Hex.encode,
      String.toList_ofList, Hex.readPairs_digits]
    exact dif_pos d.length_bytes

end Digest

end CommitPipeline
