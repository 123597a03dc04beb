import Univariate.Proofs.Rounding
import Univariate.Proofs.WholeNumbers

/-!
# Shortest decimals lie in their intervals

Seventeen digits are enough: the grid of seventeen digits is finer than the gaps between doubles, so
one of the two neighbours of a double on it rounds back to the double. So the search always finds a
decimal, and the decimal that it finds lies in the interval of the numbers that round to the double.
-/
namespace Univariate

namespace Decimal

/-- The number itself. -/
def value (d : Decimal) : ℚ := d.digits / 10 ^ d.places

theorem value_trim (n p : ℕ) : (trim n p).value = n / 10 ^ p := by
  induction p generalizing n with
  | zero => rfl
  | succ p ih =>
    rw [trim]
    split
    · rename_i zero
      have tenth : (n : ℚ) = 10 * (n / 10 : ℕ) := by
        exact_mod_cast (Nat.mul_div_cancel' (Nat.dvd_of_mod_eq_zero zero)).symm
      rw [ih, tenth, pow_succ', mul_div_mul_left _ _ (by norm_num)]
    · rfl

theorem value_ofScale (n : ℕ) (s : ℤ) : (ofScale n s).value = n * 10 ^ s := by
  unfold ofScale
  split
  · rename_i whole
    lift s to ℕ using whole
    simp [value]
  · rename_i negative
    obtain ⟨k, rfl⟩ : ∃ k : ℕ, s = -k := ⟨(-s).toNat, by omega⟩
    rw [value_trim, zpow_neg, zpow_natCast, neg_neg, Int.toNat_natCast, div_eq_mul_inv]

end Decimal

namespace Binary

theorem raise_pos {base : ℕ} (pos : 0 < base) (e : ℤ) : 0 < raise base e := Nat.pow_pos pos

theorem raise_eq {base : ℕ} (pos : 0 < base) (e : ℤ) :
    (raise base e : ℚ) = base ^ e * raise base (-e) := by
  have nonzero : (base : ℚ) ≠ 0 := by exact_mod_cast pos.ne'
  have split : ((e.toNat : ℕ) : ℤ) = e + ((-e).toNat : ℕ) := by omega
  change ((base ^ e.toNat : ℕ) : ℚ) = base ^ e * (base ^ (-e).toNat : ℕ)
  push_cast
  rw [← zpow_natCast, ← zpow_natCast, ← zpow_add₀ nonzero, split]

/-! ## The number of digits -/

theorem digitCount_pos (n : ℕ) : 0 < digitCount n := List.length_pos_iff.mpr Nat.toDigits_ne_nil

theorem lt_pow_digitCount (n : ℕ) : n < 10 ^ digitCount n :=
  (Nat.length_toDigits_le_iff (by decide) (digitCount_pos n)).mp (Nat.le_refl _)

theorem pow_digitCount_le {n : ℕ} (pos : 0 < n) : 10 ^ (digitCount n - 1) ≤ n := by
  rcases Nat.eq_zero_or_pos (digitCount n - 1) with one | more
  · rw [one]
    exact pos
  · have long : ¬(Nat.toDigits 10 n).length ≤ digitCount n - 1 := by
      rw [← digitCount]
      omega
    rw [Nat.length_toDigits_le_iff (by decide) more] at long
    exact Nat.le_of_not_lt long

theorem pow_floorLog10_le {num den : ℕ} (pos : 0 < num) (pos' : 0 < den) :
    (10 : ℚ) ^ floorLog10 num den ≤ num / den := by
  have divisor : (0 : ℚ) < den := by exact_mod_cast pos'
  rw [le_div_iff₀ divisor]
  unfold floorLog10
  split
  · rename_i great
    have quotient : 0 < num / den := Nat.div_pos great pos'
    have digits := digitCount_pos (num / den)
    have exponent : (digitCount (num / den) : ℤ) - 1 = (digitCount (num / den) - 1 : ℕ) := by omega
    have le : 10 ^ (digitCount (num / den) - 1) * den ≤ num :=
      (Nat.mul_le_mul_right den (pow_digitCount_le quotient)).trans (Nat.div_mul_le_self num den)
    rw [exponent, zpow_natCast]
    exact_mod_cast le
  · have le : den ≤ num * 10 ^ digitCount ((den - 1) / num) := by
      have below : (den - 1) / num + 1 ≤ 10 ^ digitCount ((den - 1) / num) := lt_pow_digitCount _
      have cover : den - 1 < num * ((den - 1) / num + 1) := Nat.lt_mul_div_succ _ pos
      have := Nat.mul_le_mul_left num below
      omega
    rw [zpow_neg, zpow_natCast, inv_mul_le_iff₀ (by positivity), mul_comm]
    exact_mod_cast le

/-! ## The interval -/

/-- How far down the interval reaches, in gaps above the number. -/
def below (b : Binary) : ℚ := if b.narrow then 1 / 4 else 1 / 2

theorem below_le (b : Binary) : b.below ≤ 1 / 2 := by
  unfold below
  split <;> norm_num

/-- `v` lies in the interval of the numbers that round to `b`, whose ends belong to it when the
mantissa is even. -/
structure Holds (b : Binary) (v : ℚ) : Prop where
  low : b.mantissa - b.below ≤ v / 2 ^ b.exponent
  high : v / 2 ^ b.exponent ≤ b.mantissa + 1 / 2
  ends : v / 2 ^ b.exponent = b.mantissa - b.below ∨
    v / 2 ^ b.exponent = b.mantissa + 1 / 2 → b.mantissa % 2 = 0

/-- How many units of the search are one. -/
def unit (b : Binary) (scale : ℤ) : ℕ := 4 * raise 2 (-b.exponent) * raise 10 (-scale)

/-- A quarter of a gap, in units. -/
def quarter (b : Binary) (scale : ℤ) : ℕ := raise 2 b.exponent * raise 10 (-scale)

variable (b : Binary) (scale : ℤ)

theorem unit_pos : 0 < b.unit scale :=
  Nat.mul_pos (Nat.mul_pos (by decide) (raise_pos (by decide) _)) (raise_pos (by decide) _)

theorem quarter_pos : 0 < b.quarter scale :=
  Nat.mul_pos (raise_pos (by decide) _) (raise_pos (by decide) _)

theorem unit_mul_gap : (b.unit scale : ℚ) * 2 ^ b.exponent = 4 * b.quarter scale := by
  have gap := raise_eq (show 0 < 2 by decide) b.exponent
  rw [unit, quarter]
  push_cast at gap ⊢
  rw [gap]
  ring

theorem cast_power : ((b.scaled scale).power : ℚ) = 10 ^ scale * b.unit scale := by
  have ten := raise_eq (show 0 < 10 by decide) scale
  rw [scaled, unit]
  push_cast at ten ⊢
  rw [ten]
  ring

theorem cast_high :
    ((b.scaled scale).high : ℚ) = (b.mantissa + 1 / 2) * (4 * b.quarter scale) := by
  rw [scaled, quarter]
  push_cast
  ring

variable {b scale}

theorem cast_low (pos : 0 < b.mantissa) :
    ((b.scaled scale).low : ℚ) = (b.mantissa - b.below) * (4 * b.quarter scale) := by
  rw [scaled, quarter, below]
  cases b.narrow with
  | false =>
    simp only [Bool.false_eq_true, if_false]
    rw [Nat.cast_mul, Nat.cast_sub (by omega)]
    push_cast
    ring
  | true =>
    simp only [if_true]
    rw [Nat.cast_mul, Nat.cast_sub (by omega)]
    push_cast
    ring

/-- The search accepts the multiples of its unit that lie in the interval. -/
theorem accepts_iff (pos : 0 < b.mantissa) {n : ℕ} :
    (b.scaled scale).accepts n = true ↔ b.Holds (n / b.unit scale) := by
  have quarter : (0 : ℚ) < b.quarter scale := by exact_mod_cast b.quarter_pos scale
  have four : (0 : ℚ) < 4 * b.quarter scale := by positivity
  have gaps : (n : ℚ) / b.unit scale / 2 ^ b.exponent = n / (4 * b.quarter scale) := by
    rw [div_div, unit_mul_gap]
  have low := @cast_low b scale pos
  have high := b.cast_high scale
  have low_le : (b.scaled scale).low ≤ n ↔ b.mantissa - b.below ≤ n / (4 * b.quarter scale) := by
    rw [le_div_iff₀ four, ← low, Nat.cast_le]
  have low_lt : (b.scaled scale).low < n ↔ b.mantissa - b.below < n / (4 * b.quarter scale) := by
    rw [lt_div_iff₀ four, ← low, Nat.cast_lt]
  have le_high : n ≤ (b.scaled scale).high ↔ (n : ℚ) / (4 * b.quarter scale) ≤ b.mantissa + 1 / 2 := by
    rw [div_le_iff₀ four, ← high, Nat.cast_le]
  have lt_high : n < (b.scaled scale).high ↔ (n : ℚ) / (4 * b.quarter scale) < b.mantissa + 1 / 2 := by
    rw [div_lt_iff₀ four, ← high, Nat.cast_lt]
  have closed : (b.scaled scale).closed = (b.mantissa % 2 == 0) := rfl
  unfold Scaled.accepts
  rw [closed]
  by_cases even : b.mantissa % 2 = 0
  · rw [if_pos (beq_iff_eq.mpr even), decide_eq_true_iff, low_le, le_high]
    refine ⟨fun ⟨low, high⟩ => ⟨gaps ▸ low, gaps ▸ high, fun _ => even⟩, fun holds => ?_⟩
    rw [← gaps]
    exact ⟨holds.low, holds.high⟩
  · rw [if_neg (by simpa using even), decide_eq_true_iff, low_lt, lt_high, ← gaps]
    refine ⟨fun ⟨low, high⟩ => ⟨low.le, high.le, ?_⟩, fun holds => ⟨?_, ?_⟩⟩
    · rintro (same | same)
      · exact absurd same low.ne'
      · exact absurd same high.ne
    · exact lt_of_le_of_ne holds.low fun same => even (holds.ends (.inl same.symm))
    · exact lt_of_le_of_ne holds.high fun same => even (holds.ends (.inr same))

namespace Scaled

variable {s : Scaled} {step k : ℕ}

theorem accepts_of_nearest? (h : s.nearest? step = some k) : s.accepts (k * step) = true := by
  unfold nearest? at h
  dsimp only at h
  split at h
  · rename_i here next
    split at h <;> cases h <;> assumption
  · rename_i here _
    cases h
    exact here
  · rename_i _ next
    cases h
    exact next
  · cases h

/-- A grid that is finer than the interval has a point in it next to the value. -/
theorem exists_nearest? (low : s.low < s.value) (high : s.value < s.high)
    (fine : s.low + step < s.high) (pos : 0 < step) : ∃ k, s.nearest? step = some k := by
  have here := Nat.div_mul_le_self s.value step
  have next : s.value < (s.value / step + 1) * step := by
    rw [Nat.mul_comm]
    exact Nat.lt_mul_div_succ _ pos
  have step_eq : (s.value / step + 1) * step = s.value / step * step + step := Nat.succ_mul _ _
  unfold nearest?
  dsimp only
  by_cases inside : s.low < s.value / step * step
  · rw [accepts_of_lt inside (by omega)]
    cases s.accepts ((s.value / step + 1) * step) <;> exact ⟨_, rfl⟩
  · have accepted : s.accepts ((s.value / step + 1) * step) = true :=
      accepts_of_lt (by omega) (by omega)
    rw [accepted]
    cases s.accepts (s.value / step * step) <;> exact ⟨_, rfl⟩

end Scaled

/-- The magnitude of a double. The gap below is narrow where there is only the leading bit, unless
the exponent is the least one. -/
structure Stored (b : Binary) : Prop where
  pos : 0 < b.mantissa
  fits : Double.Fits b.mantissa b.exponent
  narrow : b.narrow = true ↔ b.mantissa = 2 ^ 52 ∧ -1074 < b.exponent

/-- The number has seventeen digits before the point of its scale. -/
theorem pow_scale_le (pos : 0 < b.mantissa) :
    10 ^ 16 * 10 ^ b.scale ≤ b.mantissa * (2 : ℚ) ^ b.exponent := by
  have num : 0 < b.mantissa * raise 2 b.exponent := Nat.mul_pos pos (raise_pos (by decide) _)
  have den : 0 < raise 2 (-b.exponent) := raise_pos (by decide) _
  have digits := pow_floorLog10_le num den
  have ratio : ((b.mantissa * raise 2 b.exponent : ℕ) : ℚ) / raise 2 (-b.exponent) =
      b.mantissa * 2 ^ b.exponent := by
    have gap := raise_eq (show 0 < 2 by decide) b.exponent
    have den : ((raise 2 (-b.exponent) : ℕ) : ℚ) ≠ 0 := by exact_mod_cast den.ne'
    push_cast at gap ⊢
    rw [gap, ← mul_assoc, mul_div_cancel_right₀ _ den]
  have exponent : floorLog10 (b.mantissa * raise 2 b.exponent) (raise 2 (-b.exponent)) =
      (16 : ℕ) + b.scale := by
    rw [Binary.scale, maxDigits]
    omega
  rwa [ratio, exponent, zpow_add₀ (by norm_num), zpow_natCast] at digits

/-- The grid of seventeen digits is finer than the interval: a mantissa of 53 bits is below
`10 ^ 16`, and half of that if the interval is narrow. -/
theorem Stored.fine (h : b.Stored) :
    (b.scaled b.scale).low + (b.scaled b.scale).power < (b.scaled b.scale).high := by
  have gap : (0 : ℚ) < 2 ^ b.exponent := by positivity
  have quarter : (0 : ℚ) < b.quarter b.scale := by exact_mod_cast b.quarter_pos b.scale
  have step : (10 : ℚ) ^ b.scale < (b.below + 1 / 2) * 2 ^ b.exponent := by
    have digits := pow_scale_le h.pos
    cases narrow : b.narrow with
    | false =>
      have lt : (b.mantissa : ℚ) ≤ 2 ^ 53 := by exact_mod_cast h.fits.lt.le
      have := mul_le_mul_of_nonneg_right lt gap.le
      norm_num [below, narrow] at digits this ⊢
      linarith
    | true =>
      have power : (b.mantissa : ℚ) = 2 ^ 52 := by exact_mod_cast (h.narrow.mp narrow).1
      rw [power] at digits
      norm_num [below, narrow] at digits ⊢
      linarith
  have power : ((b.scaled b.scale).power : ℚ) * 2 ^ b.exponent =
      10 ^ b.scale * (4 * b.quarter b.scale) := by
    rw [cast_power, mul_assoc, unit_mul_gap]
  have below : ((b.scaled b.scale).power : ℚ) < (b.below + 1 / 2) * (4 * b.quarter b.scale) := by
    rw [← mul_lt_mul_iff_left₀ gap, power]
    calc 10 ^ b.scale * (4 * b.quarter b.scale)
        < (b.below + 1 / 2) * 2 ^ b.exponent * (4 * b.quarter b.scale) :=
          mul_lt_mul_of_pos_right step (by positivity)
      _ = (b.below + 1 / 2) * (4 * b.quarter b.scale) * 2 ^ b.exponent := by ring
  rw [← Nat.cast_lt (α := ℚ), Nat.cast_add, cast_low h.pos, cast_high]
  linarith

/-- A point of a coarser grid, as a decimal. -/
theorem value_of_accepted (k dropped : ℕ) :
    ((k * ((b.scaled scale).power * raise 10 dropped) : ℕ) : ℚ) / b.unit scale =
      (Decimal.ofScale k (scale + dropped)).value := by
  have unit : (b.unit scale : ℚ) ≠ 0 := by exact_mod_cast (b.unit_pos scale).ne'
  rw [Decimal.value_ofScale, raise_natCast, zpow_add₀ (by norm_num), zpow_natCast,
    div_eq_iff unit]
  push_cast
  rw [cast_power]
  ring

/-- The search finds a decimal, and it lies in the interval. -/
theorem Stored.exists_shortest? (h : b.Stored) : ∃ d, b.shortest? = some d ∧ b.Holds d.value := by
  have quarter := b.quarter_pos b.scale
  have value : (b.scaled b.scale).value = 4 * b.mantissa * b.quarter b.scale := rfl
  have low : (b.scaled b.scale).low < (b.scaled b.scale).value := by
    refine Nat.mul_lt_mul_of_pos_right ?_ quarter
    have := h.pos
    split <;> omega
  have high : (b.scaled b.scale).value < (b.scaled b.scale).high :=
    Nat.mul_lt_mul_of_pos_right (by omega) quarter
  have power : 0 < (b.scaled b.scale).power :=
    Nat.mul_pos (Nat.mul_pos (by decide) (raise_pos (by decide) _)) (raise_pos (by decide) _)
  cases found : b.shortest? with
  | none =>
    obtain ⟨k, last⟩ := Scaled.exists_nearest? low high h.fine power
    have none := List.findSome?_eq_none_iff.mp found (maxDigits - 1) (by decide)
    simp only [Nat.sub_self, Nat.cast_zero] at none
    rw [show raise 10 0 = 1 from rfl, Nat.mul_one, last] at none
    cases none
  | some d =>
    refine ⟨d, rfl, ?_⟩
    obtain ⟨n, -, here⟩ := List.exists_of_findSome?_eq_some found
    obtain ⟨k, nearest, rfl⟩ := Option.map_eq_some_iff.mp here
    rw [← value_of_accepted, ← accepts_iff h.pos]
    exact Scaled.accepts_of_nearest? nearest

theorem Stored.holds_shortest (h : b.Stored) : b.Holds b.shortest.value := by
  obtain ⟨d, found, holds⟩ := h.exists_shortest?
  rwa [shortest, found, Option.getD_some]

/-- Zero is in no interval. -/
theorem Holds.value_pos {v : ℚ} (holds : b.Holds v) (h : b.Stored) : 0 < v := by
  have gap : (0 : ℚ) < 2 ^ b.exponent := by positivity
  have some_bit : (1 : ℚ) ≤ b.mantissa := by exact_mod_cast h.pos
  have least : (1 / 2 : ℚ) ≤ v / 2 ^ b.exponent := by
    have low := holds.low
    have reach := b.below_le
    linarith
  rw [le_div_iff₀ gap] at least
  have : (0 : ℚ) < 1 / 2 * 2 ^ b.exponent := by positivity
  linarith

end Binary

namespace Double

theorem stored_magnitude {x : Float} {s : Float.Model.UnpackedFloat.Sign} {m : ℕ} {e : ℤ}
    {pos : 0 < m} (h : view x = .finite s m e pos) : (magnitude x).Stored := by
  have fits : Fits m e := by have := canonical_view x; rwa [h] at this
  obtain ⟨narrow, magnitude, power⟩ := exists_magnitude h
  rw [magnitude]
  exact ⟨pos, fits, power⟩

/-- Only zeros are written `0`. -/
theorem formatNumber_ne_zero {x : Float} (finite : x.isFinite = true)
    (nonzero : (x == Arith.zero) = false) : formatNumber x ≠ "0" := by
  obtain ⟨s, m, e, pos, unpacked⟩ := exists_finite finite nonzero
  have stored := stored_magnitude unpacked
  have positive := stored.holds_shortest.value_pos stored
  intro same
  have text : text x = "0" := by rwa [formatNumber, nonzero] at same
  rw [text_of_finite unpacked] at text
  have chars := congrArg String.toList text
  cases s with
  | negative =>
    have first := congrArg List.head? chars
    simp at first
  | positive =>
    have digits : (magnitude x).shortest.chars = ['0'] := by simpa [Decimal.text] using chars
    have read := Decimal.ofChars?_chars (magnitude x).shortest
    rw [digits, show Decimal.ofChars? ['0'] = some ⟨0, 0⟩ by decide] at read
    rw [← Option.some.inj read] at positive
    simp [Decimal.value] at positive

end Double

end Univariate
