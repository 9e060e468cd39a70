import ChargeScreening.Text.LetterTable

/-!
# Letters and digits

The character classes that rule text and field names are built from.

## Main definitions

* `isAlphabetic`: the Unicode `Alphabetic` property
* `isNumeric`: the Unicode number categories
* `isAlphanumeric`: either of the two
-/

namespace ChargeScreening.Text

/-- The Unicode `Alphabetic` property. -/
def isAlphabetic (c : Char) : Bool :=
  if c.toNat < 0x80 then c.isAlpha else inRanges alphabeticRanges c.toNat

/-- Decimal digits, letter numbers and other numbers. -/
def isNumeric (c : Char) : Bool :=
  if c.toNat < 0x80 then c.isDigit else inRanges numericRanges c.toNat

/-- Letters and numbers of any script. -/
def isAlphanumeric (c : Char) : Bool :=
  isAlphabetic c || isNumeric c

theorem isAlphanumeric_of_isAlphabetic {c : Char} (h : isAlphabetic c = true) :
    isAlphanumeric c = true := by
  simp [isAlphanumeric, h]

end ChargeScreening.Text
