import Mathlib
import Univariate.Number.Double

/-!
# Packed doubles

A double is a word of three fields, and an operation on doubles unpacks them, computes, rounds the
result and packs it again. Packing loses nothing of a number that has the exponent which rounding
aims at, and every unpacked double has that exponent. Rounding loses nothing when it only drops
zeros from such a number.
-/
namespace Univariate.Double

open Float.Model (Format UnpackedFloat totalExponent)
open Float.Model.UnpackedFloat

/-- Mantissas and exponents of doubles that are finite and not zero. Only the numbers at the least
exponent may have a mantissa without its leading bit. -/
structure Fits (m : Nat) (e : Int) : Prop where
  lt : m < 2 ^ 53
  least : -1074 ≤ e
  greatest : e ≤ 971
  leading : 2 ^ 52 ≤ m ∨ e = -1074

theorem targetExponent_eq (t : Int) :
    Format.binary64.targetExponent t = max (t - 53) (-1074) := rfl

theorem log2_mul_two_pow {m : Nat} (pos : 0 < m) (k : Nat) :
    (m * 2 ^ k).log2 = m.log2 + k := by
  have some_bit : m * 2 ^ k ≠ 0 := Nat.ne_of_gt (Nat.mul_pos pos (Nat.two_pow_pos k))
  rw [Nat.log2_eq_iff some_bit, Nat.pow_add, Nat.add_right_comm, Nat.pow_add]
  exact ⟨Nat.mul_le_mul_right _ (Nat.log2_self_le (Nat.ne_of_gt pos)),
    Nat.mul_lt_mul_of_pos_right Nat.lt_log2_self (Nat.two_pow_pos k)⟩

/-- The exponent of a double is the one that rounding aims at. -/
theorem Fits.target {m : Nat} {e : Int} (h : Fits m e) (pos : 0 < m) :
    Format.binary64.targetExponent (totalExponent m e) = e := by
  have below : m.log2 < 53 := (Nat.log2_lt (Nat.ne_of_gt pos)).mpr h.lt
  have := h.least
  rw [targetExponent_eq, totalExponent]
  rcases h.leading with leading | rfl
  · have := (Nat.le_log2 (Nat.ne_of_gt pos)).mpr leading
    omega
  · omega

/-- Bits are dropped without loss when they are zero. -/
theorem shiftRight_exact (m k : Nat) :
    (⟨m * 2 ^ k, false, false⟩ : ExtendedMantissa) >>> k = ⟨m, false, false⟩ := by
  change k.repeat ExtendedMantissa.shiftRightOne ⟨m * 2 ^ k, false, false⟩ = _
  induction k generalizing m with
  | zero => simp [Nat.repeat]
  | succ k ih =>
    have half : m * 2 ^ (k + 1) = m * 2 * 2 ^ k := by rw [Nat.pow_succ', Nat.mul_assoc]
    rw [Nat.repeat, half, ih]
    simp [ExtendedMantissa.shiftRightOne]

theorem shiftToTargetExponent_exact {m : Nat} {e : Int} (h : Fits m e) (pos : 0 < m) (k : Nat) :
    shiftToTargetExponent Format.binary64 (m * 2 ^ k) (e - k) .exact =
      (⟨m, false, false⟩, e) := by
  have target : Format.binary64.targetExponent (totalExponent (m * 2 ^ k) (e - k)) = e := by
    rw [totalExponent, log2_mul_two_pow pos]
    have := h.target pos
    rw [totalExponent] at this
    rw [← this]
    congr 1
    push_cast
    omega
  have amount : (e - (e - k)).toNat = k := by omega
  simp only [shiftToTargetExponent, shiftToExponent, target, amount,
    ExtendedMantissa.ofMantissaAndAccuracy, shiftRight_exact]
  congr 1
  omega

theorem roundWithAccuracy_exact {m : Nat} {e : Int} (h : Fits m e) (pos : 0 < m) (s : Sign)
    (k : Nat) : roundWithAccuracy Format.binary64 s (m * 2 ^ k) (e - k) .exact =
      .finite s m e pos := by
  have again : shiftToTargetExponent Format.binary64 m e .exact = (⟨m, false, false⟩, e) := by
    simpa using shiftToTargetExponent_exact h pos 0
  have rounded : ExtendedMantissa.roundedMantissa ⟨m, false, false⟩ = m := rfl
  unfold roundWithAccuracy
  rw [shiftToTargetExponent_exact h pos k]
  dsimp only
  rw [rounded, again]
  exact dif_neg (Nat.ne_of_gt pos)

/-! ## Packing -/

theorem toNat_append {v w : Nat} (a : BitVec v) (b : BitVec w) :
    (a ++ b).toNat = a.toNat * 2 ^ w + b.toNat := by
  rw [BitVec.toNat_append, ← Nat.shiftLeft_add_eq_or_of_lt b.isLt, Nat.shiftLeft_eq]

/-- What the fields of a double stand for. -/
theorem unpack_packComponents (s : Sign) (e : BitVec 11) (m : BitVec 52) :
    unpack Format.binary64 (packComponents Format.binary64 s e m) =
      if e = -1#11 then if m = 0#52 then .infinity s else .notANumber
      else if e = 0#11 then
        if h : m = 0#52 then .zero s
        else .finite s m.toNat (-1074) (BitVec.toNat_pos_of_ne_zero h)
      else .finite s (2 ^ 52 + m.toNat) ((e.toNat : Int) - 1075) (by omega) := by
  unfold unpack
  simp only [unpackMantissa_packComponents, unpackExponent_packComponents,
    unpackSign_packComponents, Sign.ofBitVec_toBitVec, toNat_append]
  split
  · rfl
  · split
    · rename_i zero
      subst zero
      rfl
    · rfl

/-- The exponent field. Numbers without the leading bit have none. -/
def exponentBits (m : Nat) (e : Int) : BitVec 11 :=
  if 2 ^ 52 ≤ m then BitVec.ofNat 11 (e + 1075).toNat else 0#11

theorem pack_finite {m : Nat} {e : Int} (h : Fits m e) (pos : 0 < m) (s : Sign) :
    pack Format.binary64 (.finite s m e pos) =
      packComponents Format.binary64 s (exponentBits m e) (BitVec.ofNat 52 m) := by
  have least := h.least
  have greatest := h.greatest
  have bias : (e + (Format.binary64.exponentBias : Nat) +
      (Format.binary64.mantissaBitsWithoutImplicit : Nat)).toNat = (e + 1075).toNat := by
    congr 1
    rw [Int.add_assoc]
    rfl
  have room : ¬ 2 ^ Format.binary64.exponentBits ≤ (e + 1075).toNat + 1 := by
    change ¬ 2 ^ 11 ≤ _
    omega
  have below : m.log2 < 53 := (Nat.log2_lt (Nat.ne_of_gt pos)).mpr h.lt
  unfold pack exponentBits
  dsimp only
  rw [bias, if_neg room]
  by_cases leading : 2 ^ 52 ≤ m
  · have log : m.log2 + 1 = Format.binary64.mantissaBits := by
      have := (Nat.le_log2 (Nat.ne_of_gt pos)).mpr leading
      change _ = 53
      omega
    rw [if_pos log, if_pos leading]
  · have log : m.log2 + 1 ≠ Format.binary64.mantissaBits := by
      have := (Nat.log2_lt (Nat.ne_of_gt pos)).mpr (Nat.lt_of_not_le leading)
      change _ ≠ 53
      omega
    rw [if_neg log, if_neg leading]

def Canonical : UnpackedFloat → Prop
  | .finite _ m e _ => Fits m e
  | _ => True

theorem unpack_pack {u : UnpackedFloat} (h : Canonical u) :
    unpack Format.binary64 (pack Format.binary64 u) = u := by
  cases u with
  | infinity s => cases s <;> rfl
  | notANumber => rfl
  | zero s => cases s <;> rfl
  | finite s m e pos =>
    have least := Fits.least h
    have greatest := Fits.greatest h
    have lt := Fits.lt h
    rw [pack_finite h, unpack_packComponents, exponentBits]
    by_cases leading : 2 ^ 52 ≤ m
    · have field : (BitVec.ofNat 11 (e + 1075).toNat).toNat = (e + 1075).toNat := by
        rw [BitVec.toNat_ofNat, Nat.mod_eq_of_lt (by omega)]
      have mantissa : 2 ^ 52 + (BitVec.ofNat 52 m).toNat = m := by
        rw [BitVec.toNat_ofNat]
        omega
      rw [if_pos leading, if_neg, if_neg]
      · simp only [field, mantissa]
        congr 1
        omega
      · intro zero
        rw [zero] at field
        change 0 = _ at field
        omega
      · intro all
        rw [all] at field
        change 2047 = _ at field
        omega
    · have mantissa : (BitVec.ofNat 52 m).toNat = m := by
        rw [BitVec.toNat_ofNat, Nat.mod_eq_of_lt (by omega)]
      rw [if_neg leading, if_neg (by decide), if_pos rfl, dif_neg]
      · simp only [mantissa]
        congr 1
        exact ((Fits.leading h).resolve_left leading).symm
      · intro zero
        rw [zero] at mantissa
        change 0 = _ at mantissa
        omega

/-- The fields of a normal number. -/
theorem fits_normal {e : BitVec 11} (m : BitVec 52) (finite : e ≠ -1#11) (normal : e ≠ 0#11) :
    Fits (2 ^ 52 + m.toNat) ((e.toNat : Int) - 1075) := by
  have low : e.toNat ≠ 0 := fun zero => normal (BitVec.eq_of_toNat_eq zero)
  have high : e.toNat ≠ 2047 := fun all => finite (BitVec.eq_of_toNat_eq all)
  have := e.isLt
  have := m.isLt
  exact ⟨by omega, by omega, by omega, .inl (by omega)⟩

theorem fits_subnormal (m : BitVec 52) : Fits m.toNat (-1074) :=
  ⟨Nat.lt_of_lt_of_le m.isLt (by decide), by decide, by decide, .inr rfl⟩

theorem canonical_unpack (b : BitVec 64) : Canonical (unpack Format.binary64 b) := by
  have fields (s : Sign) (e : BitVec 11) (m : BitVec 52) :
      Canonical (unpack Format.binary64 (packComponents Format.binary64 s e m)) := by
    rw [unpack_packComponents]
    split
    · split <;> trivial
    · rename_i finite
      split
      · split
        · trivial
        · exact fits_subnormal m
      · rename_i normal
        exact fits_normal m finite normal
  rw [← @packComponents_unpackSign_unpackExponent_unpackMantissa Format.binary64 b]
  exact fields _ _ _

end Univariate.Double
