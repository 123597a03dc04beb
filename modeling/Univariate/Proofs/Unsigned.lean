import Univariate.Expr.Printer
import Univariate.Number.Decimal.Lemmas
import Univariate.Proofs.Doubles

/-!
# Doubles without a sign

Numerals have no sign, and nothing that reading one computes makes a sign: the sign of a product or
a quotient comes from the operands, and rounding and packing keep it. So a double that was read, and
so the magnitude of any double, is written as a decimal again when it is finite.
-/
namespace Univariate.Double

open Float.Model (Format UnpackedFloat)
open Float.Model.UnpackedFloat

/-- There is no minus, not even at a zero. -/
def Unsigned : UnpackedFloat → Prop
  | .infinity s | .zero s | .finite s _ _ _ => s = .positive
  | .notANumber => True

instance : DecidablePred Unsigned
  | .infinity .positive | .zero .positive | .finite .positive _ _ _ => isTrue rfl
  | .infinity .negative | .zero .negative | .finite .negative _ _ _ => isFalse nofun
  | .notANumber => isTrue trivial

theorem unsigned_abs (u : UnpackedFloat) : Unsigned u.abs := by
  cases u with
  | notANumber => trivial
  | infinity s | zero s | finite s m e pos => rfl

theorem unsigned_roundWithAccuracy (m : Nat) (e : Int) (accuracy : Accuracy) :
    Unsigned (roundWithAccuracy Format.binary64 .positive m e accuracy) := by
  unfold roundWithAccuracy
  dsimp only
  split <;> rfl

variable {u w : UnpackedFloat}

theorem unsigned_mul (left : Unsigned u) (right : Unsigned w) :
    Unsigned (mul Format.binary64 u w) := by
  cases u with
  | notANumber => cases w <;> trivial
  | infinity s | zero s =>
    cases left
    cases w with
    | notANumber => trivial
    | infinity t | zero t | finite t m e pos => cases right; first | rfl | trivial
  | finite s m e pos =>
    cases left
    cases w with
    | notANumber => trivial
    | infinity t | zero t => cases right; rfl
    | finite t n f pos' =>
      cases right
      exact unsigned_roundWithAccuracy _ _ _

theorem unsigned_div (left : Unsigned u) (right : Unsigned w) :
    Unsigned (div Format.binary64 u w) := by
  cases u with
  | notANumber => cases w <;> trivial
  | infinity s | zero s =>
    cases left
    cases w with
    | notANumber => trivial
    | infinity t | zero t | finite t m e pos => cases right; first | rfl | trivial
  | finite s m e pos =>
    cases left
    cases w with
    | notANumber => trivial
    | infinity t | zero t => cases right; rfl
    | finite t n f pos' =>
      cases right
      exact unsigned_roundWithAccuracy _ _ _

theorem unsigned_unpack_packComponents (e : BitVec 11) (m : BitVec 52) :
    Unsigned (unpack Format.binary64 (packComponents Format.binary64 .positive e m)) := by
  rw [unpack_packComponents]
  split
  · split <;> trivial
  · split
    · split <;> rfl
    · rfl

/-- A number that is too great becomes infinite, with its sign. -/
theorem unsigned_view_ofView (h : Unsigned u) : Unsigned (view (ofView u)) := by
  cases u with
  | notANumber | infinity s | zero s =>
    rw [view_ofView (by trivial)]
    exact h
  | finite s m e pos =>
    cases h
    change Unsigned (unpack Format.binary64 (pack Format.binary64 (.finite .positive m e pos)))
    rw [pack]
    dsimp only
    split
    · exact unsigned_unpack_packComponents _ _
    · split <;> exact unsigned_unpack_packComponents _ _

theorem unsigned_toFloat {n : Nat} (lt : n < 2 ^ 53) : Unsigned (view n.toUInt64.toFloat) := by
  cases n with
  | zero => rw [view_zero]; rfl
  | succ n => rw [view_toFloat (Nat.succ_pos n) lt]; rfl

/-- The powers of ten that the reader has stored. -/
def powerOfTen (k : Fin Float.exactlyRepresentablePowersOfTen.size) : Float :=
  Float.exactlyRepresentablePowersOfTen[k]

theorem unsigned_powerOfTen : ∀ k, Unsigned (view (powerOfTen k)) := by decide +kernel

theorem unsigned_scientific (n : Nat) (e : Int) :
    Unsigned (UnpackedFloat.ofScientific Format.binary64 n e) := by
  rw [UnpackedFloat.ofScientific]
  split
  · rfl
  · split
    · rfl
    · split
      · rfl
      · split
        · apply unsigned_mul <;> rfl
        · apply unsigned_div <;> rfl

/-- What is read from a numeral has no sign. -/
theorem unsigned_ofScientific (n : Nat) (down : Bool) (k : Nat) :
    Unsigned (view (Float.ofScientific n down k)) := by
  rw [Float.ofScientific]
  split
  · rename_i small
    have power := unsigned_powerOfTen ⟨k, Nat.lt_succ_of_le small.2⟩
    have whole := unsigned_toFloat small.1
    split
    · exact unsigned_view_ofView (unsigned_div whole power)
    · exact unsigned_view_ofView (unsigned_mul whole power)
  · exact unsigned_view_ofView (unsigned_scientific n _)

theorem unsigned_ofDecimal (d : Decimal) : Unsigned (view (ofDecimal d)) :=
  unsigned_ofScientific _ _ _

/-- A positive double is written as its shortest decimal. -/
theorem ofChars?_shortest {x : Float} {m : Nat} {e : Int} {pos : 0 < m}
    (h : view x = .finite .positive m e pos) :
    Decimal.ofChars? (formatNumber x).toList = some (magnitude x).shortest := by
  have text : Numeral.text x = (magnitude x).shortest.text := by
    change Double.text x = _
    rw [text_of_finite h]
    simp
  rw [formatNumber, nonzero_of_finite h, if_neg Bool.false_ne_true, text, Decimal.text,
    String.toList_ofList, Decimal.ofChars?_chars]

theorem ofChars?_zero {x : Float} (zero : (x == Arith.zero) = true) :
    Decimal.ofChars? (formatNumber x).toList = some ⟨0, 0⟩ := by
  rw [formatNumber, if_pos zero]
  decide

/-- A finite double without a sign is written as a decimal. -/
theorem ofChars?_formatNumber {x : Float} (finite : x.isFinite = true)
    (unsigned : Unsigned (view x)) :
    ∃ d, Decimal.ofChars? (formatNumber x).toList = some d := by
  by_cases zero : (x == Arith.zero) = true
  · exact ⟨_, ofChars?_zero zero⟩
  · obtain ⟨s, m, e, pos, unpacked⟩ := exists_finite finite (Bool.not_eq_true _ ▸ zero)
    rw [unpacked] at unsigned
    obtain rfl : s = .positive := unsigned
    exact ⟨_, ofChars?_shortest unpacked⟩

end Univariate.Double
