/-!
# Percent escapes

## Main definitions

* `Text.percentDecode?`: the text that a text with percent escapes stands for
-/

namespace ChargeScreening.Text

/-- The value of a hexadecimal digit, given as a byte. -/
def hexDigitByte? (b : UInt8) : Option UInt8 :=
  if 0x30 ≤ b ∧ b ≤ 0x39 then some (b - 0x30)
  else if 0x41 ≤ b ∧ b ≤ 0x46 then some (b - 0x37)
  else if 0x61 ≤ b ∧ b ≤ 0x66 then some (b - 0x57)
  else none

/-- Replaces every percent sign that has two hexadecimal digits behind it by the byte they spell.
Any other percent sign stays. -/
def percentDecodeBytes : List UInt8 → List UInt8
  | [] => []
  | 0x25 :: high :: low :: rest =>
    match hexDigitByte? high, hexDigitByte? low with
    | some h, some l => (16 * h + l) :: percentDecodeBytes rest
    | _, _ => 0x25 :: percentDecodeBytes (high :: low :: rest)
  | b :: rest => b :: percentDecodeBytes rest

/-- The text that a text with percent escapes stands for, unless the bytes spell none. -/
def percentDecode? (s : String) : Option String :=
  String.fromUTF8? ⟨(percentDecodeBytes s.toUTF8.toList).toArray⟩

end ChargeScreening.Text
