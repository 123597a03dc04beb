import Univariate.Number.Double

/-!
# Reading doubles

The notation for single numbers outside expressions: a sign, decimal digits with or without a
point, and an exponent; or `inf`, `infinity` or `nan` in any case. The value is the double nearest
to the number that is written.
-/

namespace Univariate.Double

def integer? (cs : List Char) : Option Int :=
  let natural? (cs : List Char) : Option Nat :=
    if cs.all Char.isDigit && !cs.isEmpty then some (Nat.ofDigitChars 10 cs 0) else none
  match cs with
  | '-' :: cs => (natural? cs).map fun n => -(n : Int)
  | '+' :: cs => (natural? cs).map Int.ofNat
  | cs => (natural? cs).map Int.ofNat

/-- The double nearest to `d * 10 ^ exponent`. Far outside the range of doubles it is decided by
the exponent alone, so that no power of ten grows with the text. -/
def ofScale (d : Decimal) (exponent : Int) : Float :=
  let scale := exponent - d.places
  let magnitude := Binary.digitCount d.digits + scale
  if d.digits = 0 then 0
  else if 310 < magnitude then 1 / 0
  else if magnitude < -330 then 0
  else Float.ofScientific d.digits (decide (scale < 0)) scale.natAbs

def unsigned? (cs : List Char) : Option Float :=
  let word := String.ofList (cs.map Char.toLower)
  if word = "inf" ∨ word = "infinity" then some (1 / 0)
  else if word = "nan" then some (0 / 0)
  else
    let isMark (c : Char) : Bool := c == 'e' || c == 'E'
    match cs.dropWhile (!isMark ·) with
    | [] => (Decimal.ofChars? cs).map (ofScale · 0)
    | _ :: exponent => do
      return ofScale (← Decimal.ofChars? (cs.takeWhile (!isMark ·))) (← integer? exponent)

def ofText? (text : String) : Option Float :=
  match text.toList with
  | '-' :: cs => (unsigned? cs).map (- ·)
  | '+' :: cs => unsigned? cs
  | cs => unsigned? cs

end Univariate.Double
