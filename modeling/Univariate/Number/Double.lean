import Univariate.Number.Arith
import Univariate.Number.Shortest

/-!
# Doubles

The numbers of the program: IEEE 754 binary64 with its own arithmetic, written with the fewest
digits that read back. The notation is positional at every magnitude, whole numbers have no point,
and a zero keeps its sign.
-/

namespace Univariate

namespace Double

/-- Two laws of powers hold for every operand, not-a-number included, and are decided here:
anything to the power zero is one, and so is one to any power. -/
def pow (x y : Float) : Float :=
  if y == 0 then 1 else if x == 1 then 1 else Float.pow x y

/-- From `2 ^ 53` on every double is whole. -/
def floor (x : Float) : Float :=
  if x < 9007199254740992 then x.toUInt64.toFloat else x

/-- The conversion to a word stops at the ends of its range, so the way back tells whether
anything was lost. -/
def toNat? (x : Float) : Option Nat :=
  let n := x.toUInt32.toNat
  if Float.ofNat n == x then some n else none

def exponentField (x : Float) : Nat := (x.toBits >>> 52).toNat % 2048

/-- The mantissa of a power of two, which has its hidden bit alone. -/
def hiddenBit : Nat := 4503599627370496

def fractionField (x : Float) : Nat := x.toBits.toNat % hiddenBit

def isSigned (x : Float) : Bool := x.toBits >>> 63 == 1

/-- The magnitude of a finite double. The exponent field is zero for the numbers below the normal
range, which have no hidden bit and are spaced as those of field one. -/
def magnitude (x : Float) : Binary :=
  let e := exponentField x
  let f := fractionField x
  if e = 0 then ⟨f, -1074, false⟩
  else ⟨hiddenBit + f, (e : Int) - 1075, decide (f = 0 ∧ 1 < e)⟩

/-- The text of a number, given how to write the magnitude of one that is finite and not zero. -/
def textWith (write : Binary → String) (x : Float) : String :=
  if x.isNaN then "NaN"
  else
    let sign := if isSigned x then "-" else ""
    if !x.isFinite then sign ++ "inf"
    else if x == 0 then sign ++ "0"
    else sign ++ write (magnitude x)

def text : Float → String := textWith fun b => b.shortest.text

def wholeText : Float → String := textWith fun b => Nat.repr b.whole

def ofDecimal (d : Decimal) : Float := Float.ofScientific d.digits true d.places

end Double

instance : Arith Float where
  decLe := inferInstance
  decLt := inferInstance
  ofNat := Float.ofNat
  isFinite := Float.isFinite
  floor := Double.floor
  toNat? := Double.toNat?
  pow := Double.pow
  sin := Float.sin
  cos := Float.cos
  tan := Float.tan
  ln := Float.log
  sqrt := Float.sqrt
  abs := Float.abs
  exp := Float.exp

instance : Numeral Float where
  ofDecimal := Double.ofDecimal
  text := Double.text
  wholeText := Double.wholeText

end Univariate
