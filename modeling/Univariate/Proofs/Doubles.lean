import Univariate.Proofs.Packing

/-!
# Laws of doubles

Printed sums need some laws of their numbers in order to be read back. They hold of doubles bit for
bit, because nothing is lost when they are rounded: negation and the absolute value change the sign
only, a product or quotient with one gets zeros at its end that rounding drops again, and the
natural numbers below `2 ^ 53` have a mantissa that holds them.
-/
namespace Univariate

open Arith in
/-- Numbers that behave as real numbers do where nothing has to be rounded. -/
class LawfulNumber (α : Type) [Arith α] [Numeral α] : Prop where
  eq_of_beq {a b : α} : (a == b) = true → (b == zero) = false → a = b
  beq_self {a : α} : isFinite a = true → (a == a) = true
  neg_neg (a : α) : -(-a) = a
  isFinite_neg (a : α) : isFinite (-a) = isFinite a
  isZero_neg (a : α) : (-a == zero) = (a == zero)
  mul_one (a : α) : a * one = a
  one_pow (a : α) : Arith.pow one a = one
  one_ne_zero : ((one : α) == zero) = false
  not_one_lt_zero : ¬ (one : α) < zero
  neg_one_lt_zero : -(one : α) < zero
  zero_mul {a : α} {n : Nat} :
    (a == zero) = true → n ≤ maxNat → (a * ofNat n == zero) = true
  isFinite_ofNat {n : Nat} : n ≤ maxNat → isFinite (ofNat n : α) = true
  toNat?_ofNat {n : Nat} : n ≤ maxNat → toNat? (ofNat n : α) = some n
  ofDecimal_whole {n : Nat} : n ≤ maxNat → (Numeral.ofDecimal ⟨n, 0⟩ : α) = ofNat n
  /-- A sign is written before the text of the number without it. -/
  signed {a : α} : isFinite a = true → (a == zero) = false →
    if a < zero then a = -Arith.abs a ∧ Numeral.text a = "-" ++ Numeral.text (Arith.abs a)
    else a = Arith.abs a

namespace Double

open Float.Model (Format UnpackedFloat totalExponent)
open Float.Model.UnpackedFloat

/-! ## Doubles and their unpacked form -/

def view (x : Float) : UnpackedFloat := x.toModel.unpack

def ofView (u : UnpackedFloat) : Float := .ofModel (.pack u)

theorem canonical_view (x : Float) : Canonical (view x) := canonical_unpack _

theorem view_ofView {u : UnpackedFloat} (h : Canonical u) : view (ofView u) = u := unpack_pack h

theorem ofView_view (x : Float) : ofView (view x) = x := by
  obtain ⟨bits, valid⟩ := x
  have same : pack Format.binary64 (unpack Format.binary64 bits.toBitVec) = bits.toBitVec :=
    pack_unpack_of_valid valid
  simp only [ofView, view, Float.Model.pack, Float.Model.unpack, same]

theorem view_injective {x y : Float} (h : view x = view y) : x = y := by
  rw [← ofView_view x, h, ofView_view]

theorem canonical_neg {u : UnpackedFloat} (h : Canonical u) : Canonical u.neg := by
  cases u with
  | finite s m e pos => exact h
  | _ => trivial

theorem canonical_abs {u : UnpackedFloat} (h : Canonical u) : Canonical u.abs := by
  cases u with
  | finite s m e pos => exact h
  | _ => trivial

theorem view_neg (x : Float) : view (-x) = (view x).neg :=
  view_ofView (canonical_neg (canonical_view x))

theorem view_abs (x : Float) : view x.abs = (view x).abs :=
  view_ofView (canonical_abs (canonical_view x))

theorem neg_neg (x : Float) : -(-x) = x := by
  apply view_injective
  rw [view_neg, view_neg]
  cases view x with
  | notANumber => rfl
  | infinity s | zero s | finite s => cases s <;> rfl

theorem isFinite_neg (x : Float) : (-x).isFinite = x.isFinite := by
  change (view (-x)).isFinite = (view x).isFinite
  rw [view_neg]
  cases view x <;> rfl

theorem beq_eq (x y : Float) : (x == y) = ((view x).compare (view y) == some .eq) := rfl

def one : Float := ofView (.finite .positive (2 ^ 52) (-52) (Nat.two_pow_pos 52))

theorem view_one : view one = .finite .positive (2 ^ 52) (-52) (Nat.two_pow_pos 52) :=
  view_ofView ⟨by decide, by decide, by decide, .inl (Nat.le_refl _)⟩

theorem arith_one : (Arith.one : Float) = one := by decide +kernel

/-- An operation changes no double if it changes no special value and gives a number back with
zeros at its end, which rounding drops. -/
theorem ofView_eq_self (f : UnpackedFloat → UnpackedFloat) (nan : f .notANumber = .notANumber)
    (infinity : ∀ s, f (.infinity s) = .infinity s) (zero : ∀ s, f (.zero s) = .zero s)
    (finite : ∀ s m e pos, Fits m e → ∃ k : Nat, f (.finite s m e pos) =
      roundWithAccuracy Format.binary64 s (m * 2 ^ k) (e - k) .exact)
    (x : Float) : ofView (f (view x)) = x := by
  have canonical := canonical_view x
  have same : f (view x) = view x := by
    cases unpacked : view x with
    | notANumber => exact nan
    | infinity s => exact infinity s
    | zero s => exact zero s
    | finite s m e pos =>
      rw [unpacked] at canonical
      obtain ⟨k, rounded⟩ := finite s m e pos canonical
      rw [rounded, roundWithAccuracy_exact canonical pos]
  rw [same, ofView_view]

theorem mul_one (x : Float) : x * one = x := by
  change ofView (mul Format.binary64 (view x) (view one)) = x
  rw [view_one]
  refine ofView_eq_self (mul Format.binary64 · _) rfl ?_ ?_ ?_ x
  · intro s
    cases s <;> rfl
  · intro s
    cases s <;> rfl
  intro s m e pos _
  have sign : s * .positive = s := by cases s <;> rfl
  refine ⟨52, ?_⟩
  rw [mul, sign]
  rfl

/-- The quotient by one has all bits of the dividend, and perhaps some zeros after them. -/
theorem divCore_one {m : Nat} {e : Int} (h : Fits m e) (pos : 0 < m) : ∃ k : Nat,
    divCore Format.binary64 m e (2 ^ 52) (-52) = (m * 2 ^ k, e - k, .exact) := by
  have below : m.log2 < 53 := (Nat.log2_lt (Nat.ne_of_gt pos)).mpr h.lt
  have least := h.least
  have total : totalExponent m e - totalExponent (2 ^ 52) (-52) = m.log2 + e := by
    rw [totalExponent, totalExponent, Nat.log2_two_pow]
    omega
  obtain ⟨k, target⟩ : ∃ k : Nat, max ((m.log2 + e : Int) - 53) (-1074) = e - k := by
    refine ⟨(e - max ((m.log2 + e : Int) - 53) (-1074)).toNat, ?_⟩
    omega
  have shift : (e - -52 - (e - k)).toNat = k + 52 := by omega
  have bits : m <<< (k + 52) = m * 2 ^ k * 2 ^ 52 := by
    rw [Nat.shiftLeft_eq, Nat.pow_add, Nat.mul_assoc]
  refine ⟨k, ?_⟩
  have lower : min (e - -52) (e - k) = e - k := by omega
  simp only [divCore, total, targetExponent_eq, target, lower, shift, bits,
    Nat.mul_div_cancel _ (Nat.two_pow_pos 52), Nat.mul_mod_left, accuracyOfFraction, if_true]

theorem div_one (x : Float) : x / one = x := by
  change ofView (div Format.binary64 (view x) (view one)) = x
  rw [view_one]
  refine ofView_eq_self (div Format.binary64 · _) rfl ?_ ?_ ?_ x
  · intro s
    cases s <;> rfl
  · intro s
    cases s <;> rfl
  intro s m e pos fits
  have sign : s / .positive = s := by cases s <;> rfl
  obtain ⟨k, quotient⟩ := divCore_one fits pos
  refine ⟨k, ?_⟩
  rw [div, quotient, sign]

/-- A natural number as it is stored: shifted until it has its leading bit. -/
theorem fits_nat {n : Nat} (pos : 0 < n) (lt : n < 2 ^ 53) :
    Fits (n * 2 ^ (52 - n.log2)) (-((52 - n.log2 : Nat) : Int)) := by
  have below : n.log2 < 53 := (Nat.log2_lt (Nat.ne_of_gt pos)).mpr lt
  have whole : 2 ^ (52 - n.log2) * 2 ^ n.log2 = 2 ^ 52 := by
    rw [← Nat.pow_add]
    congr 1
    omega
  have low := Nat.log2_self_le (Nat.ne_of_gt pos)
  have high := @Nat.lt_log2_self n
  refine ⟨?_, by omega, by omega, .inl ?_⟩
  · rw [Nat.pow_succ] at high
    calc n * 2 ^ (52 - n.log2) < 2 ^ n.log2 * 2 * 2 ^ (52 - n.log2) :=
          Nat.mul_lt_mul_of_pos_right high (Nat.two_pow_pos _)
      _ = 2 ^ (52 - n.log2) * 2 ^ n.log2 * 2 := by ac_rfl
      _ = 2 ^ 52 * 2 := by rw [whole]
      _ = 2 ^ 53 := rfl
  · rw [← whole, Nat.mul_comm]
    exact Nat.mul_le_mul_right _ low

theorem view_toFloat {n : Nat} (pos : 0 < n) (lt : n < 2 ^ 53) :
    view n.toUInt64.toFloat = .finite .positive (n * 2 ^ (52 - n.log2))
      (-((52 - n.log2 : Nat) : Int)) (Nat.mul_pos pos (Nat.two_pow_pos _)) := by
  have word : n.toUInt64.toNat = n := by
    rw [Nat.toUInt64_eq, UInt64.toNat_ofNat']
    omega
  have below : n.log2 < 53 := (Nat.log2_lt (Nat.ne_of_gt pos)).mpr lt
  have target : Format.binary64.targetExponent (totalExponent n 0) =
      -((52 - n.log2 : Nat) : Int) := by
    rw [targetExponent_eq, totalExponent]
    omega
  have unpacked : ofUInt64 Format.binary64 n.toUInt64 = .finite .positive (n * 2 ^ (52 - n.log2))
      (-((52 - n.log2 : Nat) : Int)) (Nat.mul_pos pos (Nat.two_pow_pos _)) := by
    have positive : compare (n : Int) 0 = .gt := by
      rw [Int.compare_eq_gt]
      omega
    have rounded := roundWithAccuracy_exact (fits_nat pos lt)
      (Nat.mul_pos pos (Nat.two_pow_pos _)) .positive 0
    have shift : (0 - -((52 - n.log2 : Nat) : Int)).toNat = 52 - n.log2 := by omega
    have exponent : (0 : Int) - ((52 - n.log2 : Nat) : Int) = -((52 - n.log2 : Nat) : Int) := by
      omega
    rw [ofUInt64, word, ofNat, ofInt, UnpackedFloat.normalize, positive]
    simp only [Int.toNat_natCast, UnpackedFloat.round, target, decreaseExponent, shift, exponent,
      Nat.shiftLeft_eq]
    simpa using rounded
  change view (ofView (ofUInt64 Format.binary64 n.toUInt64)) = _
  rw [unpacked]
  exact view_ofView (fits_nat pos lt)

theorem view_zero : view (0 : Nat).toUInt64.toFloat = .zero .positive := view_ofView trivial

theorem ofScientific_whole {n : Nat} (lt : n < 2 ^ 53) (down : Bool) :
    Float.ofScientific n down 0 = n.toUInt64.toFloat := by
  have unit : ∀ _ : 0 < Float.exactlyRepresentablePowersOfTen.size,
      Float.exactlyRepresentablePowersOfTen[0] = one := by decide +kernel
  rw [Float.ofScientific, dif_pos ⟨lt, Nat.zero_le _⟩]
  simp only [unit, mul_one, div_one, ite_self]

theorem ofNat_eq {n : Nat} (lt : n < 2 ^ 53) : (Arith.ofNat n : Float) = n.toUInt64.toFloat :=
  ofScientific_whole lt false

theorem ofDecimal_eq {n : Nat} (lt : n < 2 ^ 53) :
    (Numeral.ofDecimal ⟨n, 0⟩ : Float) = n.toUInt64.toFloat :=
  ofScientific_whole lt true

theorem roundToInt_whole (n k : Nat) :
    roundToInt .positive (n * 2 ^ k) (-(k : Int)) = n := by
  have up : (-(k : Int) - 0).toNat = 0 := by omega
  have down : (0 - (-(k : Int) - ((0 : Nat) : Int))).toNat = k := by omega
  simp only [roundToInt, decreaseExponent, up, shiftToExponent, down, Nat.shiftLeft_zero,
    ExtendedMantissa.ofMantissaAndAccuracy, shiftRight_exact, Sign.apply]

theorem isFinite_toFloat {n : Nat} (lt : n < 2 ^ 53) : n.toUInt64.toFloat.isFinite = true := by
  change (view _).isFinite = true
  cases n with
  | zero => rw [view_zero]; rfl
  | succ n => rw [view_toFloat (Nat.succ_pos n) lt]; rfl

theorem toUInt32_toFloat {n : Nat} (le : n ≤ Arith.maxNat) :
    n.toUInt64.toFloat.toUInt32.toNat = n := by
  have lt : n < 2 ^ 53 := Nat.lt_of_le_of_lt le (by decide)
  change (view n.toUInt64.toFloat).toUInt32.toNat = n
  cases n with
  | zero => rw [view_zero]; rfl
  | succ n =>
    rw [view_toFloat (Nat.succ_pos n) lt, toUInt32, toInt, roundToInt_whole]
    rw [Int.toNat_natCast, UInt32.ofNatClamp, dif_pos (Nat.lt_of_le_of_lt le (by decide))]
    rfl

theorem compare_self {x : Float} (finite : x.isFinite = true) :
    (view x).compare (view x) = some .eq := by
  have finite : (view x).isFinite = true := finite
  cases unpacked : view x with
  | notANumber | infinity s => rw [unpacked] at finite; cases finite
  | zero s => cases s <;> rfl
  | finite s m e pos => cases s <;> simp [UnpackedFloat.compare]

theorem beq_self {x : Float} (finite : x.isFinite = true) : (x == x) = true := by
  rw [beq_eq, compare_self finite]
  rfl

theorem toNat?_toFloat {n : Nat} (le : n ≤ Arith.maxNat) :
    toNat? n.toUInt64.toFloat = some n := by
  have lt : n < 2 ^ 53 := Nat.lt_of_le_of_lt le (by decide)
  have same : Float.ofNat n = n.toUInt64.toFloat := ofNat_eq lt
  simp only [toNat?, toUInt32_toFloat le, same, beq_self (isFinite_toFloat lt), if_true]

theorem arith_zero : (Arith.zero : Float) = (0 : Nat).toUInt64.toFloat := ofNat_eq (by decide)

theorem beq_zero_iff {x : Float} : (x == Arith.zero) = true ↔ ∃ s, view x = .zero s := by
  rw [beq_eq, arith_zero, view_zero]
  cases view x with
  | notANumber => simp [UnpackedFloat.compare]
  | zero s => simp [UnpackedFloat.compare]
  | infinity s | finite s => cases s <;> simp [UnpackedFloat.compare]

/-- Doubles that are equal are the same, unless they are zeros. -/
theorem eq_of_beq {x y : Float} (equal : (x == y) = true) (nonzero : (y == Arith.zero) = false) :
    x = y := by
  have same : (view x).beq (view y) = true := equal
  obtain ⟨-, -, same | ⟨-, zero⟩ | ⟨-, zero⟩⟩ := (beq_iff_ne_notANumber_and_eq _ _).mp same
  · exact view_injective same
  all_goals
    rw [beq_zero_iff.mpr ⟨_, zero⟩] at nonzero
    cases nonzero

theorem lt_zero_iff {x : Float} {s : Sign} {m : Nat} {e : Int} {pos : 0 < m}
    (h : view x = .finite s m e pos) : x < Arith.zero ↔ s = .negative := by
  change decide (x.toModel < (Arith.zero : Float).toModel) = true ↔ _
  rw [decide_eq_true_iff]
  change ((view x).compare (view Arith.zero) == some .lt) = true ↔ _
  rw [arith_zero, view_zero, h]
  cases s <;> simp [UnpackedFloat.compare]

/-- The product of a zero and a natural number. -/
theorem zero_mul {x : Float} {n : Nat} (zero : (x == Arith.zero) = true) (lt : n < 2 ^ 53) :
    (x * Arith.ofNat n == Arith.zero) = true := by
  obtain ⟨s, zero⟩ := beq_zero_iff.mp zero
  rw [ofNat_eq lt]
  have product : ∃ s', mul Format.binary64 (view x) (view n.toUInt64.toFloat) = .zero s' := by
    rw [zero]
    cases n with
    | zero => exact ⟨_, by rw [view_zero]; rfl⟩
    | succ n => exact ⟨_, by rw [view_toFloat (Nat.succ_pos n) lt]; rfl⟩
  obtain ⟨s', product⟩ := product
  refine beq_zero_iff.mpr ⟨s', ?_⟩
  change view (ofView (mul Format.binary64 (view x) (view n.toUInt64.toFloat))) = _
  rw [product]
  exact view_ofView trivial

theorem nonzero_of_finite {x : Float} {s : Sign} {m : Nat} {e : Int} {pos : 0 < m}
    (h : view x = .finite s m e pos) : (x == Arith.zero) = false := by
  rw [← Bool.not_eq_true, beq_zero_iff, h]
  rintro ⟨t, impossible⟩
  cases impossible

/-- A finite double that is not a zero. -/
theorem exists_finite {x : Float} (finite : x.isFinite = true)
    (nonzero : (x == Arith.zero) = false) : ∃ s m e pos, view x = .finite s m e pos := by
  have finite : (view x).isFinite = true := finite
  cases unpacked : view x with
  | notANumber | infinity s => rw [unpacked] at finite; cases finite
  | zero s => rw [beq_zero_iff.mpr ⟨s, unpacked⟩] at nonzero; cases nonzero
  | finite s m e pos => exact ⟨s, m, e, pos, rfl⟩

/-! ## Texts -/

theorem toNat_toBits {x : Float} {s : Sign} {m : Nat} {e : Int} {pos : 0 < m}
    (h : view x = .finite s m e pos) :
    x.toBits.toNat = (s.toBitVec.toNat * 2 ^ 11 + (exponentBits m e).toNat) * 2 ^ 52 +
      m % 2 ^ 52 := by
  have canonical := canonical_view x
  rw [h] at canonical
  have word : x.toBits.toBitVec = s.toBitVec ++ exponentBits m e ++ BitVec.ofNat 52 m := by
    rw [← ofView_view x, h]
    exact pack_finite canonical pos s
  rw [← UInt64.toNat_toBitVec, word, toNat_append, toNat_append, BitVec.toNat_ofNat]

theorem isSigned_eq {x : Float} {s : Sign} {m : Nat} {e : Int} {pos : 0 < m}
    (h : view x = .finite s m e pos) : isSigned x = (s == .negative) := by
  have := (exponentBits m e).isLt
  have bit : (x.toBits >>> 63).toNat = s.toBitVec.toNat := by
    rw [UInt64.toNat_shiftRight, toNat_toBits h, Nat.shiftRight_eq_div_pow]
    change _ / 2 ^ 63 = _
    omega
  rw [isSigned, Bool.eq_iff_iff, beq_iff_eq, ← UInt64.toNat_inj, bit]
  cases s <;> decide

theorem exponentField_eq {x : Float} {s : Sign} {m : Nat} {e : Int} {pos : 0 < m}
    (h : view x = .finite s m e pos) : exponentField x = (exponentBits m e).toNat := by
  have := (exponentBits m e).isLt
  rw [exponentField, UInt64.toNat_shiftRight, toNat_toBits h, Nat.shiftRight_eq_div_pow]
  change _ / 2 ^ 52 % 2048 = _
  omega

theorem fractionField_eq {x : Float} {s : Sign} {m : Nat} {e : Int} {pos : 0 < m}
    (h : view x = .finite s m e pos) : fractionField x = m % 2 ^ 52 := by
  rw [fractionField, toNat_toBits h, hiddenBit]
  omega

/-- The magnitude does not depend on the sign. -/
theorem magnitude_eq {x y : Float} {s t : Sign} {m : Nat} {e : Int} {pos : 0 < m}
    (hx : view x = .finite s m e pos) (hy : view y = .finite t m e pos) :
    magnitude x = magnitude y := by
  simp only [magnitude, exponentField_eq hx, exponentField_eq hy, fractionField_eq hx,
    fractionField_eq hy]

/-- The magnitude has the mantissa and the exponent. The gap below is narrow where there is only the
leading bit, unless the exponent is the least one. -/
theorem exists_magnitude {x : Float} {s : Sign} {m : Nat} {e : Int} {pos : 0 < m}
    (h : view x = .finite s m e pos) :
    ∃ narrow, magnitude x = ⟨m, e, narrow⟩ ∧
      (narrow = true ↔ m = 2 ^ 52 ∧ -1074 < e) := by
  have canonical := canonical_view x
  rw [h] at canonical
  have fits : Fits m e := canonical
  have lt := fits.lt
  have least := fits.least
  have greatest := fits.greatest
  by_cases leading : 2 ^ 52 ≤ m
  · have exponent : exponentField x = (e + 1075).toNat := by
      rw [exponentField_eq h, exponentBits, if_pos leading, BitVec.toNat_ofNat]
      omega
    have fraction : hiddenBit + fractionField x = m := by
      rw [fractionField_eq h, hiddenBit]
      omega
    have normal : ¬ (e + 1075).toNat = 0 := by omega
    have bias : (((e + 1075).toNat : Nat) : Int) - 1075 = e := by omega
    refine ⟨decide (fractionField x = 0 ∧ 1 < (e + 1075).toNat), ?_, ?_⟩
    · simp only [magnitude, exponent, if_neg normal, fraction, bias]
    · rw [decide_eq_true_iff, ← fraction, hiddenBit]
      omega
  · have exponent : exponentField x = 0 := by
      rw [exponentField_eq h, exponentBits, if_neg leading]
      rfl
    have fraction : fractionField x = m := by
      rw [fractionField_eq h]
      omega
    refine ⟨false, ?_, ?_⟩
    · simp only [magnitude, exponent, if_true, fraction, fits.leading.resolve_left leading]
    · exact iff_of_false Bool.false_ne_true (by omega)

theorem text_of_finite {x : Float} {s : Sign} {m : Nat} {e : Int} {pos : 0 < m}
    (h : view x = .finite s m e pos) :
    text x = (if s == .negative then "-" else "") ++ (magnitude x).shortest.text := by
  have number : x.isNaN = false := by change (view x).isNaN = false; rw [h]; rfl
  have finite : x.isFinite = true := by change (view x).isFinite = true; rw [h]; rfl
  have nonzero : (x == 0) = false := nonzero_of_finite h
  simp only [text, textWith, number, finite, nonzero, isSigned_eq h]
  rfl

theorem text_abs {x : Float} {s : Sign} {m : Nat} {e : Int} {pos : 0 < m}
    (h : view x = .finite s m e pos) :
    text x = (if s == .negative then "-" else "") ++ text x.abs := by
  have unsigned : view x.abs = .finite .positive m e pos := by rw [view_abs, h]; rfl
  rw [text_of_finite h, text_of_finite unsigned, magnitude_eq h unsigned]
  rfl

/-! ## The laws -/

theorem isZero_neg (x : Float) : (-x == Arith.zero) = (x == Arith.zero) := by
  rw [Bool.eq_iff_iff, beq_zero_iff, beq_zero_iff, view_neg]
  cases view x with
  | zero s => exact ⟨fun _ => ⟨s, rfl⟩, fun _ => ⟨-s, rfl⟩⟩
  | notANumber | infinity s | finite s m e pos =>
    refine ⟨?_, ?_⟩ <;>
    · rintro ⟨t, impossible⟩
      cases impossible

theorem one_ne_zero : ((Arith.one : Float) == Arith.zero) = false := by
  rw [arith_one, nonzero_of_finite view_one]

theorem isFinite_ofNat {n : Nat} (lt : n < 2 ^ 53) : (Arith.ofNat n : Float).isFinite = true := by
  rw [ofNat_eq lt, isFinite_toFloat lt]

theorem ofNat_ne_zero {n : Nat} (pos : 0 < n) (lt : n < 2 ^ 53) :
    ((Arith.ofNat n : Float) == Arith.zero) = false := by
  rw [ofNat_eq lt, nonzero_of_finite (view_toFloat pos lt)]

theorem not_one_lt_zero : ¬ (Arith.one : Float) < Arith.zero := by
  rw [arith_one, lt_zero_iff view_one]
  nofun

theorem neg_one_lt_zero : -(Arith.one : Float) < Arith.zero := by
  have unpacked : view (-one) = .finite .negative (2 ^ 52) (-52) (Nat.two_pow_pos 52) := by
    rw [view_neg, view_one]
    rfl
  rw [arith_one, lt_zero_iff unpacked]

theorem one_pow (x : Float) : pow Arith.one x = Arith.one := by
  have one_eq : ((Arith.one : Float) == 1) = true :=
    beq_self (by rw [arith_one]; change (view one).isFinite = true; rw [view_one]; rfl)
  rw [pow, one_eq]
  split <;> rfl

theorem signed {x : Float} (finite : x.isFinite = true) (nonzero : (x == Arith.zero) = false) :
    if x < Arith.zero then x = -x.abs ∧ text x = "-" ++ text x.abs else x = x.abs := by
  obtain ⟨s, m, e, pos, unpacked⟩ := exists_finite finite nonzero
  have text := text_abs unpacked
  cases s with
  | negative =>
    rw [if_pos ((lt_zero_iff unpacked).mpr rfl)]
    refine ⟨view_injective ?_, text⟩
    rw [view_neg, view_abs, unpacked]
    rfl
  | positive =>
    rw [if_neg (mt (lt_zero_iff unpacked).mp nofun)]
    refine view_injective ?_
    rw [view_abs, unpacked]
    rfl

theorem lt_of_le_maxNat {n : Nat} (le : n ≤ Arith.maxNat) : n < 2 ^ 53 :=
  Nat.lt_of_le_of_lt le (by decide)

end Double

instance : LawfulNumber Float where
  eq_of_beq := Double.eq_of_beq
  beq_self := Double.beq_self
  neg_neg := Double.neg_neg
  isFinite_neg := Double.isFinite_neg
  isZero_neg := Double.isZero_neg
  mul_one a := by rw [Double.arith_one, Double.mul_one]
  one_pow := Double.one_pow
  one_ne_zero := Double.one_ne_zero
  not_one_lt_zero := Double.not_one_lt_zero
  neg_one_lt_zero := Double.neg_one_lt_zero
  zero_mul zero le := Double.zero_mul zero (Double.lt_of_le_maxNat le)
  isFinite_ofNat le := Double.isFinite_ofNat (Double.lt_of_le_maxNat le)
  toNat?_ofNat le := by
    rw [Double.ofNat_eq (Double.lt_of_le_maxNat le)]
    exact Double.toNat?_toFloat le
  ofDecimal_whole le := by
    rw [Double.ofNat_eq (Double.lt_of_le_maxNat le),
      Double.ofDecimal_eq (Double.lt_of_le_maxNat le)]
  signed := Double.signed

end Univariate
