/-!
# Decimal notation

An unsigned decimal number in positional notation, without an exponent: the digits as one natural
number, and how many of them stand after the point. Reading takes at most one point and at least
one digit, which may all stand on one side of it. Writing puts a digit on both sides.
-/

namespace Univariate

structure Decimal where
  digits : Nat
  places : Nat
  deriving DecidableEq, Repr

namespace Decimal

def ofChars? (cs : List Char) : Option Decimal :=
  let whole := cs.takeWhile (· ≠ '.')
  let fraction := (cs.dropWhile (· ≠ '.')).tail
  let digits := whole ++ fraction
  if digits.all Char.isDigit && !digits.isEmpty then
    some ⟨Nat.ofDigitChars 10 digits 0, fraction.length⟩
  else none

def chars (d : Decimal) : List Char :=
  if d.places = 0 then Nat.toDigits 10 d.digits
  else
    let digits := (Nat.toDigits 10 d.digits).leftpad (d.places + 1) '0'
    let whole := digits.length - d.places
    digits.take whole ++ '.' :: digits.drop whole

def text (d : Decimal) : String := String.ofList d.chars

/-- Final zeros after the point are dropped. -/
def trim (digits : Nat) : (places : Nat) → Decimal
  | 0 => ⟨digits, 0⟩
  | places + 1 =>
    if digits % 10 = 0 then trim (digits / 10) places else ⟨digits, places + 1⟩

/-- The number `digits * 10 ^ scale`. -/
def ofScale (digits : Nat) (scale : Int) : Decimal :=
  if 0 ≤ scale then ⟨digits * Nat.pow 10 scale.toNat, 0⟩ else trim digits (-scale).toNat

end Decimal

/-- A number type with decimal notation. -/
class Numeral (α : Type) where
  ofDecimal : Decimal → α
  text : α → String
  /-- All digits of a whole number, where `text` may write zeros for those that do not matter. -/
  wholeText : α → String

end Univariate
