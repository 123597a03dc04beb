import Univariate.Proofs.Doubles

/-!
# Rounded products and quotients

A product or a quotient of doubles is computed with all its bits, or with enough of them and two
bits that stand for the rest. Bits are dropped until the mantissa has 53 of them or the least
exponent is reached, and what is left is rounded to the nearest whole number, a tie to the even one.
So a product or a quotient of numbers other than zero is zero exactly if it is at most half of the
least positive double.
-/
namespace Univariate

/-- The number itself. -/
def Binary.value (b : Binary) : ℚ := b.mantissa * 2 ^ b.exponent

namespace Double

open Float.Model (Format UnpackedFloat totalExponent)
open Float.Model.UnpackedFloat

/-! ## Round and sticky bits -/

/-- What a mantissa and its two bits say about the number they were cut from. -/
def Stands (em : ExtendedMantissa) (x : ℚ) : Prop :=
  match em.roundBit, em.stickyBit with
  | false, false => x = em.mantissa
  | false, true => em.mantissa < x ∧ x < em.mantissa + 1 / 2
  | true, false => x = em.mantissa + 1 / 2
  | true, true => em.mantissa + 1 / 2 < x ∧ x < em.mantissa + 1

/-- A whole number nearest to `x`, the even one if there are two. -/
structure Nearest (x : ℚ) (n : ℕ) : Prop where
  low : x - 1 / 2 ≤ n
  high : n ≤ x + 1 / 2
  tie : n = x + 1 / 2 ∨ n = x - 1 / 2 → n % 2 = 0

namespace Stands

variable {em : ExtendedMantissa} {x : ℚ}

theorem mantissa_le (h : Stands em x) : em.mantissa ≤ x ∧ x < em.mantissa + 1 := by
  obtain ⟨m, round, sticky⟩ := em
  cases round <;> cases sticky <;> simp only [Stands] at h ⊢ <;> constructor <;> linarith

theorem nearest (h : Stands em x) : Nearest x em.roundedMantissa := by
  obtain ⟨m, round, sticky⟩ := em
  cases round <;> cases sticky <;>
    simp only [Stands, ExtendedMantissa.roundedMantissa, ExtendedMantissa.accuracy,
      Accuracy.roundToNearestEven] at h ⊢
  · refine ⟨by linarith, by linarith, ?_⟩
    rintro (up | down) <;> linarith
  · refine ⟨by linarith, by linarith, ?_⟩
    rintro (up | down) <;> linarith
  · rcases Nat.mod_two_eq_zero_or_one m with even | odd
    · rw [even, Nat.add_zero]
      exact ⟨by linarith, by linarith, fun _ => even⟩
    · rw [odd]
      refine ⟨by push_cast; linarith, by push_cast; linarith, fun _ => by omega⟩
  · refine ⟨by push_cast; linarith, by push_cast; linarith, ?_⟩
    push_cast
    rintro (up | down) <;> linarith

/-- One step: the last bit becomes the round bit, and the old round bit one of those that the
sticky bit stands for. -/
theorem shiftRightOne (h : Stands em x) : Stands em.shiftRightOne (x / 2) := by
  obtain ⟨m, round, sticky⟩ := em
  have halves : (m : ℚ) = 2 * (m / 2 : ℕ) + (m % 2 : ℕ) := by
    exact_mod_cast (Nat.div_add_mod m 2).symm
  rcases Nat.mod_two_eq_zero_or_one m with last | last
  · have bit : (m % 2 != 0) = false := by rw [last]; rfl
    rw [last] at halves
    push_cast at halves
    cases round <;> cases sticky <;>
      simp only [Stands, ExtendedMantissa.shiftRightOne, bit, Bool.or_self, Bool.or_true,
        Bool.or_false] at h ⊢ <;>
      first | linarith | constructor <;> linarith
  · have bit : (m % 2 != 0) = true := by rw [last]; rfl
    rw [last] at halves
    push_cast at halves
    cases round <;> cases sticky <;>
      simp only [Stands, ExtendedMantissa.shiftRightOne, bit, Bool.or_self, Bool.or_true,
        Bool.or_false] at h ⊢ <;>
      first | linarith | constructor <;> linarith

theorem shiftRight (h : Stands em x) (k : ℕ) : Stands (em >>> k) (x / 2 ^ k) := by
  change Stands (k.repeat ExtendedMantissa.shiftRightOne em) _
  induction k with
  | zero => simpa [Nat.repeat] using h
  | succ k ih =>
    rw [Nat.repeat, pow_succ, ← div_div]
    exact ih.shiftRightOne

theorem exact (m : ℕ) : Stands (.ofMantissaAndAccuracy m .exact) m := rfl

theorem quotient_add_rest (n : ℕ) {d : ℕ} (pos : 0 < d) :
    (n : ℚ) / d = (n / d : ℕ) + (n % d : ℕ) / d := by
  have divisor : (0 : ℚ) < d := by exact_mod_cast pos
  have split : (n : ℚ) = d * (n / d : ℕ) + (n % d : ℕ) := by
    exact_mod_cast (Nat.div_add_mod n d).symm
  rw [div_eq_iff divisor.ne', add_mul, div_mul_cancel₀ _ divisor.ne']
  linarith

/-- The accuracy of a quotient says how its remainder compares with half of the divisor. -/
theorem fraction (n : ℕ) {d : ℕ} (pos : 0 < d) :
    Stands (.ofMantissaAndAccuracy (n / d) (accuracyOfFraction (n % d) d)) (n / d) := by
  have below : ((n % d : ℕ) : ℚ) < d := by exact_mod_cast Nat.mod_lt n pos
  have divisor : (0 : ℚ) < d := by exact_mod_cast pos
  rw [quotient_add_rest n pos]
  unfold accuracyOfFraction
  split
  · rename_i zero
    rw [zero]
    simp [Stands, ExtendedMantissa.ofMantissaAndAccuracy]
  · rename_i nonzero
    have some_rest : (0 : ℚ) < (n % d : ℕ) / d :=
      div_pos (by exact_mod_cast Nat.pos_of_ne_zero nonzero) divisor
    cases half : compare (2 * (n % d)) d with
    | lt =>
      have half : 2 * ((n % d : ℕ) : ℚ) < d := by exact_mod_cast Nat.compare_eq_lt.mp half
      have : ((n % d : ℕ) : ℚ) / d < 1 / 2 := by rw [div_lt_iff₀ divisor]; linarith
      change ((n / d : ℕ) : ℚ) < _ ∧ _ < ((n / d : ℕ) : ℚ) + 1 / 2
      constructor <;> linarith
    | eq =>
      have half : 2 * ((n % d : ℕ) : ℚ) = d := by exact_mod_cast Nat.compare_eq_eq.mp half
      have : ((n % d : ℕ) : ℚ) / d = 1 / 2 := by rw [div_eq_iff divisor.ne']; linarith
      change _ = _
      rw [this]
      rfl
    | gt =>
      have half : (d : ℚ) < 2 * (n % d : ℕ) := by exact_mod_cast Nat.compare_eq_gt.mp half
      have : 1 / 2 < ((n % d : ℕ) : ℚ) / d := by rw [lt_div_iff₀ divisor]; linarith
      have : ((n % d : ℕ) : ℚ) / d < 1 := by rwa [div_lt_one divisor]
      change ((n / d : ℕ) : ℚ) + 1 / 2 < _ ∧ _ < ((n / d : ℕ) : ℚ) + 1
      constructor <;> linarith

end Stands

/-! ## The rounded number -/

/-- `n * 2 ^ t` is nearest to `v` of the numbers with this exponent, which is the one that leaves a
mantissa of 53 bits unless that is below the least one. -/
structure Rounds (v : ℚ) (n : ℕ) (t : ℤ) : Prop where
  least : -1074 ≤ t
  leading : 2 ^ 52 * 2 ^ t ≤ v ∨ t = -1074
  lt : v < 2 ^ 53 * 2 ^ t
  nearest : Nearest (v / 2 ^ t) n

/-- Half of the least positive double. -/
def halfLeast : ℚ := 2 ^ (-1075 : ℤ)

theorem halfLeast_pos : 0 < halfLeast := zpow_pos two_pos _

theorem halfLeast_mul_two : halfLeast * 2 = 2 ^ (-1074 : ℤ) := (zpow_add_one₀ two_ne_zero _).symm

theorem leadingBit_pos : 0 < 2 ^ 52 := Nat.two_pow_pos 52

/-- Rounding up may make a mantissa of 54 bits, whose last one is zero. -/
def assemble (s : Sign) (n : ℕ) (t : ℤ) : UnpackedFloat :=
  if h : n = 0 then .zero s
  else if n < 2 ^ 53 then .finite s n t (Nat.pos_of_ne_zero h)
  else .finite s (2 ^ 52) (t + 1) leadingBit_pos

namespace Rounds

variable {v : ℚ} {n : ℕ} {t : ℤ}

theorem le (h : Rounds v n t) : n ≤ 2 ^ 53 := by
  have unit : (0 : ℚ) < 2 ^ t := by positivity
  have below : v / 2 ^ t < 2 ^ 53 := (div_lt_iff₀ unit).mpr h.lt
  have high := h.nearest.high
  have : (n : ℚ) < (2 ^ 53 + 1 : ℕ) := by push_cast; linarith
  exact Nat.le_of_lt_succ (by exact_mod_cast this)

theorem leading_mantissa (h : Rounds v n t) : 2 ^ 52 ≤ n ∨ t = -1074 := by
  refine h.leading.imp_left fun leading => ?_
  have unit : (0 : ℚ) < 2 ^ t := by positivity
  have above : 2 ^ 52 ≤ v / 2 ^ t := (le_div_iff₀ unit).mpr leading
  have low := h.nearest.low
  have : ((2 ^ 52 : ℕ) : ℚ) < n + 1 := by push_cast; linarith
  exact Nat.le_of_lt_succ (by exact_mod_cast this)

/-- Only numbers up to half of the least positive double are rounded to zero. -/
theorem eq_zero_iff (h : Rounds v n t) : n = 0 ↔ v ≤ halfLeast := by
  have unit : (0 : ℚ) < 2 ^ t := by positivity
  have scale : halfLeast * 2 ≤ 2 ^ t := by
    rw [halfLeast_mul_two]
    exact zpow_le_zpow_right₀ one_le_two h.least
  have low := h.nearest.low
  have high := h.nearest.high
  rcases h.leading with leading | bottom
  · -- a mantissa with its leading bit is too great for either side
    have := (le_div_iff₀ unit).mpr leading
    have := halfLeast_pos
    constructor
    · rintro rfl
      norm_num at low
      linarith
    · intro small
      linarith
  · have scale : halfLeast * 2 = 2 ^ t := by rw [halfLeast_mul_two, bottom]
    constructor
    · rintro rfl
      have := (div_le_iff₀ unit).mp (show v / 2 ^ t ≤ 1 / 2 by norm_num at low ⊢; linarith)
      linarith
    · intro small
      have ratio : v / 2 ^ t ≤ 1 / 2 := (div_le_iff₀ unit).mpr (by linarith)
      have le : (n : ℚ) ≤ (1 : ℕ) := by push_cast; linarith
      have le : n ≤ 1 := by exact_mod_cast le
      interval_cases n
      · rfl
      · -- one half is rounded to the even one of its neighbours
        have even := h.nearest.tie (.inl (by push_cast at high ⊢; linarith))
        exact absurd even (by decide)

end Rounds

theorem shiftToTargetExponent_of_lt {n : ℕ} {t : ℤ} (lt : n < 2 ^ 53) (least : -1074 ≤ t) :
    shiftToTargetExponent Format.binary64 n t .exact = (⟨n, false, false⟩, t) := by
  have below : n.log2 < 53 := by
    rcases Nat.eq_zero_or_pos n with rfl | pos
    · decide
    · exact (Nat.log2_lt pos.ne').mpr lt
  have stay : (Format.binary64.targetExponent (totalExponent n t) - t).toNat = 0 := by
    rw [targetExponent_eq, totalExponent]
    omega
  simp only [shiftToTargetExponent, shiftToExponent, stay, Nat.cast_zero, add_zero]
  rfl

theorem shiftToTargetExponent_carry {t : ℤ} (least : -1074 ≤ t) :
    shiftToTargetExponent Format.binary64 (2 ^ 53) t .exact = (⟨2 ^ 52, false, false⟩, t + 1) := by
  have step : (Format.binary64.targetExponent (totalExponent (2 ^ 53) t) - t).toNat = 1 := by
    rw [targetExponent_eq, totalExponent, Nat.log2_two_pow]
    omega
  simp only [shiftToTargetExponent, shiftToExponent, step, Nat.cast_one]
  rfl

theorem two_pow_mul (k : ℕ) (t : ℤ) : (2 : ℚ) ^ k * 2 ^ t = 2 ^ (k + t) := by
  rw [zpow_add₀ two_ne_zero, zpow_natCast]

/-- After the first shift and its rounding there is at most one bit too many. -/
theorem roundWithAccuracy_of_shifted {m : ℕ} {e t : ℤ} {accuracy : Accuracy}
    {em : ExtendedMantissa} {v : ℚ}
    (shifted : shiftToTargetExponent Format.binary64 m e accuracy = (em, t))
    (rounds : Rounds v em.roundedMantissa t) (s : Sign) :
    roundWithAccuracy Format.binary64 s m e accuracy = assemble s em.roundedMantissa t := by
  unfold roundWithAccuracy assemble
  rw [shifted]
  dsimp only
  by_cases short : em.roundedMantissa < 2 ^ 53
  · rw [shiftToTargetExponent_of_lt short rounds.least]
    simp only [if_pos short]
  · have carry : em.roundedMantissa = 2 ^ 53 := Nat.le_antisymm rounds.le (Nat.le_of_not_lt short)
    rw [carry, shiftToTargetExponent_carry rounds.least]
    simp

/-- A mantissa whose bits are dropped down to the right exponent is rounded as its value asks. -/
theorem Stands.rounds {em : ExtendedMantissa} {x : ℚ} (stands : Stands em x) {e t : ℤ} {k : ℕ}
    (exponent : e + k = t) (least : -1074 ≤ t) (fits : em.mantissa.log2 + e ≤ 52 + t)
    (leading : em.mantissa ≠ 0 ∧ 52 + t ≤ em.mantissa.log2 + e ∨ t = -1074) :
    Rounds (x * 2 ^ e) (em >>> k).roundedMantissa t := by
  obtain ⟨low, high⟩ := stands.mantissa_le
  have unit : (0 : ℚ) < 2 ^ e := by positivity
  have scaled : x * 2 ^ e / 2 ^ t = x / 2 ^ k := by
    rw [← exponent, zpow_add₀ two_ne_zero, zpow_natCast, mul_comm x,
      mul_div_mul_left _ _ (zpow_ne_zero e two_ne_zero)]
  refine ⟨least, leading.imp_left ?_, ?_, ?_⟩
  · rintro ⟨nonzero, bits⟩
    have first : 2 ^ em.mantissa.log2 ≤ em.mantissa := Nat.log2_self_le nonzero
    have first : (2 : ℚ) ^ em.mantissa.log2 ≤ em.mantissa := by exact_mod_cast first
    calc (2 : ℚ) ^ 52 * 2 ^ t = 2 ^ ((52 : ℕ) + t) := two_pow_mul 52 t
      _ ≤ 2 ^ (em.mantissa.log2 + e) := zpow_le_zpow_right₀ one_le_two bits
      _ = 2 ^ em.mantissa.log2 * 2 ^ e := (two_pow_mul _ e).symm
      _ ≤ x * 2 ^ e := mul_le_mul_of_nonneg_right (first.trans low) unit.le
  · have most : em.mantissa + 1 ≤ 2 ^ (em.mantissa.log2 + 1) := Nat.lt_log2_self
    have most : (em.mantissa : ℚ) + 1 ≤ 2 ^ (em.mantissa.log2 + 1) := by exact_mod_cast most
    calc x * 2 ^ e < 2 ^ (em.mantissa.log2 + 1) * 2 ^ e :=
          mul_lt_mul_of_pos_right (high.trans_le most) unit
      _ = 2 ^ ((em.mantissa.log2 + 1 : ℕ) + e) := two_pow_mul _ _
      _ ≤ 2 ^ ((53 : ℕ) + t) := zpow_le_zpow_right₀ one_le_two (by push_cast; omega)
      _ = 2 ^ 53 * 2 ^ t := (two_pow_mul 53 t).symm
  · rw [scaled]
    exact (stands.shiftRight k).nearest

theorem mantissa_ofMantissaAndAccuracy (m : ℕ) (accuracy : Accuracy) :
    (ExtendedMantissa.ofMantissaAndAccuracy m accuracy).mantissa = m := by
  cases accuracy with
  | exact => rfl
  | inexact half => cases half <;> rfl

/-- A number is rounded as its value asks when its mantissa has enough bits: at least 53, or all
down to the least exponent. -/
theorem roundWithAccuracy_eq {m : ℕ} {e : ℤ} {accuracy : Accuracy} {x : ℚ}
    (stands : Stands (.ofMantissaAndAccuracy m accuracy) x) (enough : 2 ^ 52 ≤ m ∨ e ≤ -1074)
    (s : Sign) : ∃ n t, Rounds (x * 2 ^ e) n t ∧
      roundWithAccuracy Format.binary64 s m e accuracy = assemble s n t := by
  obtain ⟨t, target⟩ : ∃ t, t = max ((m.log2 + 1 + e : ℤ) - 53) (-1074) := ⟨_, rfl⟩
  obtain ⟨k, amount⟩ : ∃ k, k = (t - e).toNat := ⟨_, rfl⟩
  have log (leading : 2 ^ 52 ≤ m) : 52 ≤ m.log2 := (Nat.le_log2 (by omega)).mpr leading
  have exponent : e + k = t := by omega
  have shifted : shiftToTargetExponent Format.binary64 m e accuracy =
      (ExtendedMantissa.ofMantissaAndAccuracy m accuracy >>> k, t) := by
    simp only [shiftToTargetExponent, shiftToExponent, targetExponent_eq, totalExponent, ← target,
      ← amount, exponent]
  have rounds : Rounds (x * 2 ^ e)
      (ExtendedMantissa.ofMantissaAndAccuracy m accuracy >>> k).roundedMantissa t := by
    refine stands.rounds exponent (by omega) ?_ ?_ <;> rw [mantissa_ofMantissaAndAccuracy]
    · omega
    · by_cases bottom : t = -1074
      · exact .inr bottom
      · refine .inl ⟨?_, by omega⟩
        rintro rfl
        simp at target
        omega
  exact ⟨_, t, rounds, roundWithAccuracy_of_shifted shifted rounds s⟩

/-! ## Products and quotients -/

/-- A number with too great an exponent is packed as infinite. -/
theorem view_ofView_great {m : ℕ} {e : ℤ} (great : 971 < e) (pos : 0 < m) (s : Sign) :
    view (ofView (.finite s m e pos)) = .infinity s := by
  have bias : (e + (Format.binary64.exponentBias : ℕ) +
      (Format.binary64.mantissaBitsWithoutImplicit : ℕ)).toNat = (e + 1075).toNat := by
    congr 1
    rw [Int.add_assoc]
    rfl
  have room : 2 ^ Format.binary64.exponentBits ≤ (e + 1075).toNat + 1 := by
    change 2 ^ 11 ≤ _
    omega
  change unpack Format.binary64 (pack Format.binary64 (.finite s m e pos)) = _
  unfold pack
  dsimp only
  rw [bias, if_pos room]
  cases s <;> rfl

theorem view_assemble_eq_zero_iff {v : ℚ} {n : ℕ} {t : ℤ} (h : Rounds v n t) (s : Sign) :
    (∃ s', view (ofView (assemble s n t)) = .zero s') ↔ n = 0 := by
  have finite {m : ℕ} {e : ℤ} (pos : 0 < m) (lt : m < 2 ^ 53) (least : -1074 ≤ e)
      (leading : 2 ^ 52 ≤ m ∨ e = -1074) : ¬∃ s', view (ofView (.finite s m e pos)) = .zero s' := by
    rintro ⟨s', zero⟩
    by_cases great : 971 < e
    · rw [view_ofView_great great] at zero
      cases zero
    · rw [view_ofView (show Canonical (.finite s m e pos) from
        ⟨lt, least, by omega, leading⟩)] at zero
      cases zero
  have least := h.least
  unfold assemble
  split
  · rename_i zero
    exact iff_of_true ⟨s, view_ofView trivial⟩ zero
  · rename_i nonzero
    split
    · rename_i short
      exact iff_of_false (finite _ short least h.leading_mantissa) nonzero
    · exact iff_of_false (finite _ (by decide) (by omega) (.inl (Nat.le_refl _))) nonzero

/-- The absolute value of a finite double. -/
def absValue (x : Float) : ℚ := (magnitude x).value

theorem absValue_eq {x : Float} {s : Sign} {m : ℕ} {e : ℤ} {pos : 0 < m}
    (h : view x = .finite s m e pos) : absValue x = m * 2 ^ e := by
  obtain ⟨narrow, magnitude, -⟩ := exists_magnitude h
  rw [absValue, magnitude]
  rfl

theorem absValue_ofNat {n : ℕ} (pos : 0 < n) (lt : n < 2 ^ 53) :
    absValue (Arith.ofNat n) = n := by
  rw [ofNat_eq lt, absValue_eq (view_toFloat pos lt), zpow_neg, zpow_natCast]
  push_cast
  exact mul_div_cancel_right₀ _ (pow_ne_zero _ two_ne_zero)

/-- There is no double between zero and the least positive one. -/
theorem halfLeast_lt_absValue {x : Float} (finite : x.isFinite = true)
    (nonzero : (x == Arith.zero) = false) : halfLeast < absValue x := by
  obtain ⟨s, m, e, pos, unpacked⟩ := exists_finite finite nonzero
  have fits : Fits m e := by have := canonical_view x; rwa [unpacked] at this
  have some_bit : (1 : ℚ) ≤ m := by exact_mod_cast pos
  have unit : (0 : ℚ) < 2 ^ e := by positivity
  rw [absValue_eq unpacked]
  calc halfLeast < halfLeast * 2 := lt_mul_of_one_lt_right halfLeast_pos one_lt_two
    _ = 2 ^ (-1074 : ℤ) := halfLeast_mul_two
    _ ≤ 2 ^ e := zpow_le_zpow_right₀ one_le_two fits.least
    _ ≤ m * 2 ^ e := le_mul_of_one_le_left unit.le some_bit

section

variable {x y : Float} {s₁ s₂ : Sign} {m₁ m₂ : ℕ} {e₁ e₂ : ℤ} {pos₁ : 0 < m₁} {pos₂ : 0 < m₂}

/-- A product of doubles has all its bits. -/
theorem exists_rounds_mul (hx : view x = .finite s₁ m₁ e₁ pos₁)
    (hy : view y = .finite s₂ m₂ e₂ pos₂) : ∃ n t, Rounds (absValue x * absValue y) n t ∧
      view (x * y) = view (ofView (assemble (s₁ * s₂) n t)) := by
  have fits₁ : Fits m₁ e₁ := by have := canonical_view x; rwa [hx] at this
  have fits₂ : Fits m₂ e₂ := by have := canonical_view y; rwa [hy] at this
  have enough : 2 ^ 52 ≤ m₁ * m₂ ∨ e₁ + e₂ ≤ -1074 := by
    rcases fits₁.leading with leading | least
    · exact .inl (leading.trans (Nat.le_mul_of_pos_right m₁ pos₂))
    · rcases fits₂.leading with leading | least'
      · exact .inl (leading.trans (Nat.le_mul_of_pos_left m₂ pos₁))
      · exact .inr (by omega)
  obtain ⟨n, t, rounds, rounded⟩ := roundWithAccuracy_eq (.exact (m₁ * m₂)) enough (s₁ * s₂)
  refine ⟨n, t, ?_, ?_⟩
  · have value : absValue x * absValue y = (m₁ * m₂ : ℕ) * 2 ^ (e₁ + e₂) := by
      rw [absValue_eq hx, absValue_eq hy, zpow_add₀ two_ne_zero]
      push_cast
      ring
    rwa [value]
  · rw [← rounded]
    change view (ofView (mul Format.binary64 (view x) (view y))) = _
    rw [hx, hy]
    rfl

/-- The quotient has enough bits, and its accuracy stands for the others. -/
theorem divCore_enough (pos₁ : 0 < m₁) (pos₂ : 0 < m₂) (e₁ e₂ : ℤ) :
    ∃ k : ℕ, divCore Format.binary64 m₁ e₁ m₂ e₂ = (m₁ * 2 ^ k / m₂, e₁ - e₂ - k,
        accuracyOfFraction (m₁ * 2 ^ k % m₂) m₂) ∧
      (2 ^ 52 ≤ m₁ * 2 ^ k / m₂ ∨ e₁ - e₂ - k ≤ -1074) := by
  obtain ⟨t, target⟩ : ∃ t, t = min (e₁ - e₂)
    (max (((m₁.log2 + 1 + e₁ : ℤ) - (m₂.log2 + 1 + e₂)) - 53) (-1074)) := ⟨_, rfl⟩
  obtain ⟨k, amount⟩ : ∃ k, k = (e₁ - e₂ - t).toNat := ⟨_, rfl⟩
  have exponent : e₁ - e₂ - k = t := by omega
  refine ⟨k, ?_, ?_⟩
  · simp only [divCore, targetExponent_eq, totalExponent, ← target, ← amount, exponent,
      Nat.shiftLeft_eq]
  · rw [exponent]
    by_cases low : t ≤ -1074
    · exact .inr low
    · left
      have bits : 53 + m₂.log2 ≤ m₁.log2 + k := by omega
      have below : m₂ < 2 ^ (m₂.log2 + 1) := Nat.lt_log2_self
      rw [Nat.le_div_iff_mul_le pos₂]
      calc 2 ^ 52 * m₂ ≤ 2 ^ 52 * 2 ^ (m₂.log2 + 1) := Nat.mul_le_mul_left _ below.le
        _ = 2 ^ (53 + m₂.log2) := by ring
        _ ≤ 2 ^ (m₁.log2 + k) := Nat.pow_le_pow_right two_pos bits
        _ = 2 ^ m₁.log2 * 2 ^ k := pow_add _ _ _
        _ ≤ m₁ * 2 ^ k := Nat.mul_le_mul_right _ (Nat.log2_self_le pos₁.ne')

theorem exists_rounds_div (hx : view x = .finite s₁ m₁ e₁ pos₁)
    (hy : view y = .finite s₂ m₂ e₂ pos₂) : ∃ n t, Rounds (absValue x / absValue y) n t ∧
      view (x / y) = view (ofView (assemble (s₁ / s₂) n t)) := by
  obtain ⟨k, quotient, enough⟩ := divCore_enough pos₁ pos₂ e₁ e₂
  obtain ⟨n, t, rounds, rounded⟩ :=
    roundWithAccuracy_eq (.fraction (m₁ * 2 ^ k) pos₂) enough (s₁ / s₂)
  refine ⟨n, t, ?_, ?_⟩
  · have value : absValue x / absValue y = (m₁ * 2 ^ k : ℕ) / m₂ * 2 ^ (e₁ - e₂ - k) := by
      rw [absValue_eq hx, absValue_eq hy, zpow_sub₀ two_ne_zero, zpow_sub₀ two_ne_zero,
        zpow_natCast]
      push_cast
      field_simp
    rwa [value]
  · rw [← rounded]
    change view (ofView (div Format.binary64 (view x) (view y))) = _
    rw [hx, hy]
    simp only [div, quotient]

end

variable {x y : Float}

/-- A product is zero exactly if it is at most half of the least positive double. -/
theorem mul_isZero_iff (finite : x.isFinite = true) (nonzero : (x == Arith.zero) = false)
    (finite' : y.isFinite = true) (nonzero' : (y == Arith.zero) = false) :
    (x * y == Arith.zero) = true ↔ absValue x * absValue y ≤ halfLeast := by
  obtain ⟨s₁, m₁, e₁, pos₁, hx⟩ := exists_finite finite nonzero
  obtain ⟨s₂, m₂, e₂, pos₂, hy⟩ := exists_finite finite' nonzero'
  obtain ⟨n, t, rounds, product⟩ := exists_rounds_mul hx hy
  rw [beq_zero_iff, product, view_assemble_eq_zero_iff rounds, rounds.eq_zero_iff]

theorem div_isZero_iff (finite : x.isFinite = true) (nonzero : (x == Arith.zero) = false)
    (finite' : y.isFinite = true) (nonzero' : (y == Arith.zero) = false) :
    (x / y == Arith.zero) = true ↔ absValue x / absValue y ≤ halfLeast := by
  obtain ⟨s₁, m₁, e₁, pos₁, hx⟩ := exists_finite finite nonzero
  obtain ⟨s₂, m₂, e₂, pos₂, hy⟩ := exists_finite finite' nonzero'
  obtain ⟨n, t, rounds, quotient⟩ := exists_rounds_div hx hy
  rw [beq_zero_iff, quotient, view_assemble_eq_zero_iff rounds, rounds.eq_zero_iff]

end Double

end Univariate
