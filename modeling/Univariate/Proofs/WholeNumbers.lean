import Univariate.Expr.Printer
import Univariate.Proofs.PrintedTerms

/-!
# Texts of whole numbers

The shortest decimal of a whole double below `2 ^ 53` is the number itself. It has fewer digits
than the search looks at, and a grid that passes it by has no point within one of it, while a point
of its interval is no more than half away. So whole numbers are read back from their texts.
-/
namespace Univariate

namespace Decimal

theorem trim_mul_pow (n p : Nat) : trim (n * 10 ^ p) p = ⟨n, 0⟩ := by
  induction p with
  | zero => rw [Nat.pow_zero, Nat.mul_one, trim]
  | succ p ih =>
    have digits : n * 10 ^ (p + 1) = n * 10 ^ p * 10 := by rw [Nat.pow_succ, Nat.mul_assoc]
    rw [trim, digits, if_pos (Nat.mul_mod_left _ _), Nat.mul_div_cancel _ (by decide), ih]

/-- A whole number on a grid that it belongs to. -/
theorem ofScale_whole {n places dropped : Nat} (h : 10 ^ dropped ∣ n * 10 ^ places) :
    ofScale (n * 10 ^ places / 10 ^ dropped) ((dropped : Int) - places) = ⟨n, 0⟩ := by
  obtain ⟨k, product⟩ := h
  rw [product, Nat.mul_div_cancel_left _ (Nat.pow_pos (by decide)), ofScale]
  obtain le | lt := Nat.lt_or_ge dropped places |>.symm
  · obtain ⟨j, rfl⟩ := Nat.exists_eq_add_of_le le
    have value : k * 10 ^ j = n := by
      apply Nat.eq_of_mul_eq_mul_right (Nat.pow_pos (show 0 < 10 by decide))
      rw [product]
      ring
    have scale : (((places + j : Nat) : Int) - places).toNat = j := by omega
    rw [if_pos (by omega), scale, ← value]
    rfl
  · obtain ⟨j, rfl⟩ := Nat.exists_eq_add_of_le (Nat.le_of_lt lt)
    have value : k = n * 10 ^ j := by
      apply Nat.eq_of_mul_eq_mul_left (Nat.pow_pos (show 0 < 10 by decide))
      rw [← product]
      ring
    have scale : (-((dropped : Int) - ((dropped + j : Nat) : Int))).toNat = j := by omega
    rw [if_neg (by omega), scale, value, trim_mul_pow]

/-- A whole number that a grid passes by is at least one away from its points. -/
theorem unit_from_grid {n places dropped : Nat} (apart : ¬ 10 ^ dropped ∣ n * 10 ^ places) :
    n * 10 ^ places / 10 ^ dropped * 10 ^ dropped + 10 ^ places ≤ n * 10 ^ places ∧
      n * 10 ^ places + 10 ^ places ≤ (n * 10 ^ places / 10 ^ dropped + 1) * 10 ^ dropped := by
  have coarse : places < dropped := by
    apply Nat.lt_of_not_le
    intro le
    exact apart (Dvd.dvd.mul_left (Nat.pow_dvd_pow 10 le) n)
  obtain ⟨j, rfl⟩ := Nat.exists_eq_add_of_le (Nat.le_of_lt coarse)
  have quotient : n * 10 ^ places / 10 ^ (places + j) = n / 10 ^ j := by
    rw [Nat.pow_add, Nat.mul_comm (10 ^ places),
      Nat.mul_div_mul_right _ _ (Nat.pow_pos (by decide))]
  have remainder : 0 < n % 10 ^ j := by
    apply Nat.pos_of_ne_zero
    intro even
    obtain ⟨i, rfl⟩ := Nat.dvd_of_mod_eq_zero even
    exact apart ⟨i, by ring⟩
  have split := Nat.div_add_mod' n (10 ^ j)
  have less := Nat.mod_lt n (Nat.pow_pos (show 0 < 10 by decide) : 0 < 10 ^ j)
  have next : (n / 10 ^ j + 1) * 10 ^ j = n / 10 ^ j * 10 ^ j + 10 ^ j := Nat.succ_mul _ _
  have below : (n / 10 ^ j * 10 ^ j + 1) * 10 ^ places ≤ n * 10 ^ places :=
    Nat.mul_le_mul_right _ (by omega)
  have above : (n + 1) * 10 ^ places ≤ (n / 10 ^ j + 1) * 10 ^ j * 10 ^ places :=
    Nat.mul_le_mul_right _ (by omega)
  rw [quotient, Nat.pow_add]
  constructor <;> linarith

end Decimal

namespace Binary

namespace Scaled

variable {s : Scaled} {step : Nat}

theorem accepts_of_lt {n : Nat} (low : s.low < n) (high : n < s.high) : s.accepts n = true := by
  unfold accepts
  split
  · exact decide_eq_true ⟨Nat.le_of_lt low, Nat.le_of_lt high⟩
  · exact decide_eq_true ⟨low, high⟩

theorem accepts_eq_false {n : Nat} (h : n < s.low ∨ s.high < n) : s.accepts n = false := by
  unfold accepts
  split
  · exact decide_eq_false (by omega)
  · exact decide_eq_false (by omega)

/-- A value that is on the grid is found. -/
theorem nearest?_of_dvd (low : s.low < s.value) (high : s.value < s.high) (pos : 0 < step)
    (h : step ∣ s.value) : s.nearest? step = some (s.value / step) := by
  have value : s.value / step * step = s.value := Nat.div_mul_cancel h
  have next : s.value < (s.value / step + 1) * step := by
    rw [Nat.add_mul, value]
    omega
  unfold nearest?
  simp only [value, accepts_of_lt low high, Nat.sub_self]
  cases s.accepts ((s.value / step + 1) * step) with
  | false => rfl
  | true => exact congrArg some (if_pos (Nat.sub_pos_of_lt next))

theorem nearest?_of_far (below : s.value / step * step < s.low)
    (above : s.high < (s.value / step + 1) * step) : s.nearest? step = none := by
  simp only [nearest?, accepts_eq_false (.inl below), accepts_eq_false (.inr above)]

/-- The value is the whole number `n` in units of `unit * 10 ^ places`, and the ends of its interval
are less than one such unit away. -/
structure IsWhole (s : Scaled) (n unit places : Nat) : Prop where
  value : s.value = unit * (n * 10 ^ places)
  low : s.low < s.value
  high : s.value < s.high
  low_near : s.value < s.low + unit * 10 ^ places
  high_near : s.high < s.value + unit * 10 ^ places

/-- On each grid the search finds the number itself or nothing. -/
theorem IsWhole.nearest? {n unit places : Nat} (h : s.IsWhole n unit places) (pos : 0 < unit)
    (dropped : Nat) : s.nearest? (unit * 10 ^ dropped) =
      if 10 ^ dropped ∣ n * 10 ^ places then some (n * 10 ^ places / 10 ^ dropped) else none := by
  have quotient : s.value / (unit * 10 ^ dropped) = n * 10 ^ places / 10 ^ dropped := by
    rw [h.value, Nat.mul_div_mul_left _ _ pos]
  split
  · rename_i grid
    rw [← quotient]
    refine nearest?_of_dvd h.low h.high (Nat.mul_pos pos (Nat.pow_pos (by decide))) ?_
    rw [h.value]
    exact Nat.mul_dvd_mul_left unit grid
  · rename_i apart
    obtain ⟨below, above⟩ := Decimal.unit_from_grid apart
    have below := Nat.mul_le_mul_left unit below
    have above := Nat.mul_le_mul_left unit above
    rw [Nat.mul_add, ← h.value] at below above
    apply nearest?_of_far
    · rw [quotient, Nat.mul_left_comm]
      have := h.low_near
      omega
    · rw [quotient, Nat.mul_left_comm]
      have := h.high_near
      omega

end Scaled

/-- The whole number `n` with its leading bit in place. -/
def ofWhole (n k : Nat) (narrow : Bool) : Binary := ⟨n * 2 ^ k, -(k : Int), narrow⟩

variable {n k : Nat} {narrow : Bool}

theorem raise_neg_natCast (base k : Nat) : raise base (-(k : Int)) = 1 := by
  have : (-(k : Int)).toNat = 0 := by omega
  rw [raise, this]
  rfl

theorem raise_natCast (base k : Nat) : raise base k = base ^ k := rfl

/-- How many zeros the search puts after the digits of `n`. -/
def zeros (n : Nat) : Nat := maxDigits - digitCount n

theorem scale_ofWhole (pos : 0 < n) (few : digitCount n ≤ maxDigits) :
    (ofWhole n k narrow).scale = -(zeros n : Int) := by
  have least : 2 ^ k ≤ n * 2 ^ k := Nat.le_mul_of_pos_left _ pos
  have value : n * 2 ^ k * raise 2 (-(k : Int)) = n * 2 ^ k := by
    rw [raise_neg_natCast, Nat.mul_one]
  rw [scale, ofWhole]
  simp only [value, Int.neg_neg, raise_natCast, floorLog10, if_pos least,
    Nat.mul_div_cancel _ (Nat.two_pow_pos k)]
  rw [zeros]
  omega

theorem power_ofWhole (n k : Nat) (narrow : Bool) (places : Nat) :
    ((ofWhole n k narrow).scaled (-(places : Int))).power = 4 * 2 ^ k := by
  simp only [scaled, ofWhole, Int.neg_neg, raise_neg_natCast, raise_natCast, Nat.mul_one]

theorem isWhole_scaled (pos : 0 < n) (places : Nat) :
    ((ofWhole n k narrow).scaled (-(places : Int))).IsWhole n (4 * 2 ^ k) places := by
  have ten : 0 < 10 ^ places := Nat.pow_pos (by decide)
  have unit : 4 * 10 ^ places ≤ 4 * 2 ^ k * 10 ^ places :=
    Nat.mul_le_mul_right _ (Nat.le_mul_of_pos_right 4 (Nat.two_pow_pos k))
  have leading : 4 ≤ 4 * (n * 2 ^ k) :=
    Nat.le_mul_of_pos_right 4 (Nat.mul_pos pos (Nat.two_pow_pos k))
  have low (half : Nat) (le : half ≤ 2) : (4 * (n * 2 ^ k) - half) * 10 ^ places +
      half * 10 ^ places = 4 * (n * 2 ^ k) * 10 ^ places := by
    rw [← Nat.add_mul, Nat.sub_add_cancel (by omega)]
  have one := low 1 (by decide)
  have two := low 2 (by decide)
  have high := Nat.add_mul (4 * (n * 2 ^ k)) 2 (10 ^ places)
  cases narrow with
  | false | true =>
    constructor <;>
      simp only [scaled, ofWhole, Int.neg_neg, raise_neg_natCast, raise_natCast, Nat.one_mul,
        Bool.false_eq_true, if_false, if_true]
    · ring
    · omega
    · omega
    · omega
    · omega

theorem shortest?_ofWhole (pos : 0 < n) (few : digitCount n ≤ maxDigits) :
    (ofWhole n k narrow).shortest? = some ⟨n, 0⟩ := by
  have grids : (ofWhole n k narrow).shortest? = (List.range maxDigits).findSome? fun i =>
      if 10 ^ (maxDigits - 1 - i) ∣ n * 10 ^ zeros n then some ⟨n, 0⟩ else none := by
    rw [shortest?]
    congr 1
    funext i
    dsimp only
    rw [scale_ofWhole pos few, power_ofWhole, raise_natCast,
      (isWhole_scaled pos _).nearest? (Nat.mul_pos (by decide) (Nat.two_pow_pos k))]
    split
    · rename_i grid
      rw [Option.map_some, Int.add_comm, ← Int.sub_eq_add_neg, Decimal.ofScale_whole grid]
    · rfl
  rw [grids]
  cases found : (List.range maxDigits).findSome? fun i =>
      if 10 ^ (maxDigits - 1 - i) ∣ n * 10 ^ zeros n then some (⟨n, 0⟩ : Decimal) else none with
  | none =>
    -- the last grid has all whole numbers
    have last := List.findSome?_eq_none_iff.mp found (maxDigits - 1) (by decide)
    simp at last
  | some d =>
    obtain ⟨i, -, here⟩ := List.exists_of_findSome?_eq_some found
    split at here
    · exact here.symm
    · cases here

theorem shortest_ofWhole (pos : 0 < n) (few : digitCount n ≤ maxDigits) :
    (ofWhole n k narrow).shortest = ⟨n, 0⟩ := by
  rw [shortest, shortest?_ofWhole pos few, Option.getD_some]

end Binary

namespace Double

open Float.Model (UnpackedFloat)
open Float.Model.UnpackedFloat

theorem exists_magnitude_toFloat {n : Nat} (pos : 0 < n) (lt : n < 2 ^ 53) :
    ∃ k narrow, magnitude n.toUInt64.toFloat = Binary.ofWhole n k narrow := by
  obtain ⟨narrow, magnitude, -⟩ := exists_magnitude (view_toFloat pos lt)
  exact ⟨_, narrow, magnitude⟩

theorem text_toFloat {n : Nat} (pos : 0 < n) (lt : n < 2 ^ 53) :
    text n.toUInt64.toFloat = Nat.repr n := by
  have few : Binary.digitCount n ≤ Binary.maxDigits := by
    rw [Binary.digitCount, Nat.length_toDigits_le_iff (by decide) (by decide)]
    exact Nat.lt_trans lt (by decide)
  obtain ⟨k, narrow, magnitude⟩ := exists_magnitude_toFloat pos lt
  rw [text_of_finite (view_toFloat pos lt), magnitude, Binary.shortest_ofWhole pos few,
    Decimal.text, Decimal.chars, if_pos rfl, Nat.repr_eq_ofList_toDigits]
  exact String.empty_append

/-- Whole numbers are written in full and without a point. -/
theorem formatNumber_ofNat {n : Nat} (lt : n < 2 ^ 53) :
    formatNumber (Arith.ofNat n : Float) = Nat.repr n := by
  cases n with
  | zero => decide +kernel
  | succ n =>
    rw [formatNumber, ofNat_ne_zero (Nat.succ_pos n) lt, ofNat_eq lt]
    exact text_toFloat (Nat.succ_pos n) lt

theorem readsBack_ofNat {n : Nat} (lt : n < 2 ^ 53) : ReadsBack (Arith.ofNat n : Float) := by
  have digits : Decimal.ofChars? (formatNumber (Arith.ofNat n : Float)).toList = some ⟨n, 0⟩ := by
    rw [formatNumber_ofNat lt, Decimal.ofChars?_repr]
  refine ⟨⟨_, digits⟩, ?_⟩
  rw [reread, digits, Option.map_some, Option.getD_some, ofDecimal_eq lt, ofNat_eq lt]
  exact beq_self (isFinite_toFloat lt)

end Double

end Univariate
