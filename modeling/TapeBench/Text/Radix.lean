/-!
# `TapeBench.Text.Radix`: numbers and byte lists as text

Log lines and fault texts print addresses and bytes in base 16, link state codes in base 2 and
byte lists in base 10. This module writes all of them.

* `padded`: the digits of a number in a base, filled with zeros up to a least width.
* `hex` and `binary`: `padded` behind the mark of the base, `0x` or `0b`.
* `hexPairs` and `ofHexPairs`: bytes as pairs of digits in base 16, written and read.
* `byteList`: decimal bytes in brackets, as in `[72, 10]`.
-/

set_option autoImplicit false

namespace TapeBench.Text

/-- The digits of `n` in base `base`, most significant first, with zeros in front up to `width`
digits. A number that needs more digits keeps them all. -/
def padded (base width n : Nat) : String :=
  let digits := Nat.toDigits base n
  String.ofList (List.replicate (width - digits.length) '0' ++ digits)

/-- Base 16 in lower case, behind `0x`, with at least `width` digits. -/
def hex (width n : Nat) : String :=
  "0x" ++ padded 16 width n

/-- Base 2 behind `0b`, with at least `width` digits. -/
def binary (width n : Nat) : String :=
  "0b" ++ padded 2 width n

/-- The digit of a number below 16, in lower case. -/
def hexDigit (n : UInt8) : Char :=
  if n < 10 then Char.ofNat (48 + n.toNat) else Char.ofNat (87 + n.toNat)

/-- Bytes as pairs of digits in base 16, without a mark. -/
def hexPairs (bytes : Array UInt8) : String :=
  bytes.foldl
    (fun (text : String) (byte : UInt8) =>
      (text.push (hexDigit (byte >>> 4))).push (hexDigit (byte &&& 15)))
    ""

/-- The value of a digit in base 16 of either case. -/
def hexValue (digit : Char) : Nat :=
  if digit.isDigit then digit.toNat - 48
  else if digit.isUpper then digit.toNat - 55
  else digit.toNat - 87

/-- The bytes that pairs of digits stand for. A digit without a partner is dropped. -/
def ofHexPairs : List Char → List UInt8
  | high :: low :: rest => .ofNat (16 * hexValue high + hexValue low) :: ofHexPairs rest
  | _ => []

/-- Decimal bytes in brackets, separated by a comma and a blank. -/
def byteList (bytes : Array UInt8) : String :=
  "[" ++ ", ".intercalate (bytes.toList.map fun byte => toString byte.toNat) ++ "]"

end TapeBench.Text
