import CommitPipeline.Round.Checked

/-!
# Decimal numbers

Numbers as they are written on a command line: decimal digits, any number of zeros in front, behind
a plus sign or not. Numbers that need not be whole are only told from other texts.
-/

namespace CommitPipeline.Decimal

/-- The number of decimal digits, of which there is at least one. -/
def ofDigits? (digits : List Char) : Option Nat :=
  if digits.isEmpty || !digits.all Char.isDigit then none
  else some (Nat.ofDigitChars 10 digits 0)

/-- The number of a text. -/
def ofString? (text : String) : Option Nat :=
  match text.toList with
  | '+' :: digits => ofDigits? digits
  | digits => ofDigits? digits

/-- The number of a text as a 64-bit word. -/
def word? (text : String) : Option UInt64 := (ofString? text).bind Word.ofNat?

/-- Whether characters are an exponent, or none. -/
def isExponent : List Char → Bool
  | [] => true
  | c :: rest =>
    let digits := match rest with
      | '+' :: digits | '-' :: digits => digits
      | digits => digits
    (c = 'e' || c = 'E') && (ofDigits? digits).isSome

/-- Whether characters are a number without a sign, perhaps with a fraction and an exponent, or a
word for what is beyond all numbers or is none. -/
def isUnsigned (chars : List Char) : Bool :=
  let whole := chars.takeWhile Char.isDigit
  let (fraction, rest) := match chars.dropWhile Char.isDigit with
    | '.' :: rest => (rest.takeWhile Char.isDigit, rest.dropWhile Char.isDigit)
    | rest => ([], rest)
  ["inf", "infinity", "nan"].contains (String.ofList (chars.map Char.toLower)) ||
    !(whole.isEmpty && fraction.isEmpty) && isExponent rest

end CommitPipeline.Decimal
