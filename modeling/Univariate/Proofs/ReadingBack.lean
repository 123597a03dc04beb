import Univariate.Proofs.RoundTrip
import Univariate.Proofs.ShortestDecimals
import Univariate.Proofs.Unsigned

/-!
# Doubles are read back

A numeral is read as the double nearest to it. That is so on both ways of the reader: a short one,
which divides by a stored power of ten, and a long one with all digits of the power. The numbers in
the interval of a double are rounded to that double, and its text is one of them. So every finite
double is read back from its text.
-/
namespace Univariate.Double

open Float.Model (Format UnpackedFloat)
open Float.Model.UnpackedFloat

/-! ## The interval of a double -/

section

variable {b : Binary} {v : ℚ} {n : ℕ} {t : ℤ}

/-- A tie cannot come from two neighbours, since only one of them is even. -/
theorem Nearest.eq_mantissa (nearest : Nearest (v / 2 ^ b.exponent) n) (holds : b.Holds v) :
    n = b.mantissa := by
  have low := holds.low
  have high := holds.high
  have reach := b.below_le
  rcases Nat.lt_trichotomy n b.mantissa with less | equal | greater
  · have less' : (n : ℚ) + 1 ≤ b.mantissa := by exact_mod_cast less
    have le := nearest.low
    have even := nearest.tie (.inr (by linarith))
    have even' := holds.ends (.inl (by linarith))
    have next : (b.mantissa : ℚ) = (n + 1 : ℕ) := by push_cast; linarith
    have next : b.mantissa = n + 1 := by exact_mod_cast next
    omega
  · exact equal
  · have greater' : (b.mantissa : ℚ) + 1 ≤ n := by exact_mod_cast greater
    have le := nearest.high
    have even := nearest.tie (.inl (by linarith))
    have even' := holds.ends (.inr (by linarith))
    have next : (n : ℚ) = (b.mantissa + 1 : ℕ) := by push_cast; linarith
    have next : n = b.mantissa + 1 := by exact_mod_cast next
    omega

theorem Rounds.exponent_le (rounds : Rounds v n t) (stored : b.Stored) (holds : b.Holds v) :
    t ≤ b.exponent := by
  have gap : (0 : ℚ) < 2 ^ b.exponent := by positivity
  have high := (div_le_iff₀ gap).mp holds.high
  by_contra above
  have double : (2 : ℚ) ^ (b.exponent + 1) ≤ 2 ^ t := zpow_le_zpow_right₀ one_le_two (by omega)
  have most : (b.mantissa : ℚ) + 1 ≤ 2 ^ 53 := by exact_mod_cast stored.fits.lt
  have most := mul_le_mul_of_nonneg_right most gap.le
  rw [zpow_add_one₀ two_ne_zero] at double
  rcases rounds.leading with leading | least
  · linarith
  · have := stored.fits.least
    omega

/-- The numbers of the interval are rounded at the exponent of the double, or at the next smaller
one if they lie below a power of two. -/
theorem Rounds.exponent_cases (rounds : Rounds v n t) (stored : b.Stored) (holds : b.Holds v) :
    t = b.exponent ∨ t + 1 = b.exponent ∧ b.mantissa = 2 ^ 52 := by
  rcases (rounds.exponent_le stored holds).eq_or_lt with equal | less
  · exact .inl equal
  right
  have gap : (0 : ℚ) < 2 ^ b.exponent := by positivity
  have unit : (0 : ℚ) < 2 ^ t := by positivity
  have low := (le_div_iff₀ gap).mp holds.low
  have few := rounds.lt
  have reach := b.below_le
  have leading : 2 ^ 52 ≤ b.mantissa := by
    have := rounds.least
    exact stored.fits.leading.resolve_right (by omega)
  have leading' : (2 : ℚ) ^ 52 ≤ b.mantissa := by exact_mod_cast leading
  have next : t + 1 = b.exponent := by
    by_contra further
    have quarter : (2 : ℚ) ^ (t + 2) ≤ 2 ^ b.exponent :=
      zpow_le_zpow_right₀ one_le_two (by omega)
    have reach := mul_le_mul_of_nonneg_right reach gap.le
    have leading := mul_le_mul_of_nonneg_right leading' gap.le
    rw [zpow_add₀ two_ne_zero] at quarter
    norm_num at quarter few
    linarith
  refine ⟨next, ?_⟩
  rw [← next, zpow_add_one₀ two_ne_zero] at low
  have lt : ((b.mantissa : ℚ) - b.below) * 2 < 2 ^ 53 := by
    rw [← mul_lt_mul_iff_left₀ unit]
    linarith
  have lt : (b.mantissa : ℚ) < (2 ^ 52 + 1 : ℕ) := by
    push_cast
    linarith
  have lt : b.mantissa < 2 ^ 52 + 1 := by exact_mod_cast lt
  omega

/-- Every number of the interval is rounded to the double. -/
theorem Rounds.assemble_eq (rounds : Rounds v n t) (stored : b.Stored) (holds : b.Holds v)
    (s : Sign) : assemble s n t = .finite s b.mantissa b.exponent stored.pos := by
  rcases rounds.exponent_cases stored holds with equal | ⟨next, power⟩
  · have nearest := rounds.nearest
    rw [equal] at nearest ⊢
    rw [nearest.eq_mantissa holds, assemble, dif_neg stored.pos.ne', if_pos stored.fits.lt]
  · -- the narrow gap is a quarter, so what is rounded in it goes up and carries
    have narrow : b.narrow = true := stored.narrow.mpr ⟨power, by have := rounds.least; omega⟩
    have unit : (0 : ℚ) < 2 ^ t := by positivity
    have low := holds.low
    rw [← next, zpow_add_one₀ two_ne_zero, ← div_div, Binary.below, if_pos narrow, power] at low
    push_cast at low
    have le := rounds.nearest.low
    have least : (2 : ℚ) ^ 53 ≤ n + 1 := by linarith
    have least : 2 ^ 53 ≤ n + 1 := by exact_mod_cast least
    have carry : n = 2 ^ 53 := by
      by_contra short
      have last : n + 1 = 2 ^ 53 := by have := rounds.le; omega
      have last' : (n : ℚ) + 1 = 2 ^ 53 := by exact_mod_cast last
      have even := rounds.nearest.tie (.inr (by linarith))
      omega
    rw [carry, assemble, dif_neg (by decide), if_neg (by decide)]
    congr 1
    exact power.symm

end

/-! ## Reading -/

/-- The stored powers of ten are exact. -/
theorem magnitude_powerOfTen : ∀ k,
    (magnitude (powerOfTen k)).mantissa * Binary.raise 2 (magnitude (powerOfTen k)).exponent =
        10 ^ k.1 * Binary.raise 2 (-(magnitude (powerOfTen k)).exponent) ∧
      (powerOfTen k).isFinite = true ∧ (powerOfTen k == Arith.zero) = false := by
  decide +kernel

variable (k : Fin Float.exactlyRepresentablePowersOfTen.size)

theorem absValue_powerOfTen : absValue (powerOfTen k) = 10 ^ k.1 := by
  have exact := (magnitude_powerOfTen k).1
  rw [absValue, Binary.value]
  generalize magnitude (powerOfTen k) = b at exact ⊢
  have nonzero : (Binary.raise 2 (-b.exponent) : ℚ) ≠ 0 := by
    exact_mod_cast (Binary.raise_pos two_pos _).ne'
  have two := Binary.raise_eq two_pos b.exponent
  have exact : (b.mantissa : ℚ) * Binary.raise 2 b.exponent =
      10 ^ k.1 * Binary.raise 2 (-b.exponent) := by exact_mod_cast exact
  rw [two, ← mul_assoc] at exact
  exact mul_right_cancel₀ nonzero exact

/-- The short way: a quotient of two doubles that are exact. -/
theorem exists_rounds_quotient {n : ℕ} (pos : 0 < n) (lt : n < 2 ^ 53) :
    ∃ n' t, Rounds (n / 10 ^ k.1) n' t ∧
      view (n.toUInt64.toFloat / powerOfTen k) = view (ofView (assemble .positive n' t)) := by
  obtain ⟨-, finite, nonzero⟩ := magnitude_powerOfTen k
  obtain ⟨s, m, e, pos', unpacked⟩ := exists_finite finite nonzero
  have unsigned := unsigned_powerOfTen k
  rw [unpacked] at unsigned
  cases unsigned
  obtain ⟨n', t, rounds, quotient⟩ := exists_rounds_div (view_toFloat pos lt) unpacked
  rw [absValue_powerOfTen, ← ofNat_eq lt, absValue_ofNat pos lt] at rounds
  exact ⟨n', t, rounds, quotient⟩

/-- What is at most half of the least positive double is rounded to zero. -/
theorem Rounds.of_le_halfLeast {v : ℚ} (nonneg : 0 ≤ v) (le : v ≤ halfLeast) :
    Rounds v 0 (-1074) := by
  have positive := halfLeast_pos
  have few : v / (halfLeast * 2) ≤ 1 / 2 := (div_le_iff₀ (by linarith)).mpr (by linarith)
  have some_part : 0 ≤ v / (halfLeast * 2) := div_nonneg nonneg (by linarith)
  refine ⟨le_refl _, .inr rfl, ?_, ?_, ?_, fun _ => rfl⟩ <;> rw [← halfLeast_mul_two]
  · linarith
  · push_cast
    linarith
  · push_cast
    linarith

/-- A power of ten that the long way does not try makes the number far smaller than that. -/
theorem rounds_tiny {n k : ℕ} (tiny : 2048 + n.log2 < k) : Rounds (n / 10 ^ k) 0 (-1074) := by
  have power : (0 : ℚ) < 10 ^ k := by positivity
  have scale : halfLeast * 2 ^ 1075 = 1 := by
    rw [halfLeast, ← zpow_natCast, ← zpow_add₀ two_ne_zero]
    rfl
  have below : n * 2 ^ 1075 ≤ 10 ^ k :=
    calc n * 2 ^ 1075 ≤ 2 ^ (n.log2 + 1) * 2 ^ 1075 :=
          Nat.mul_le_mul_right _ Nat.lt_log2_self.le
      _ = 2 ^ (n.log2 + 1 + 1075) := (pow_add 2 _ _).symm
      _ ≤ 2 ^ k := Nat.pow_le_pow_right two_pos (by omega)
      _ ≤ 10 ^ k := Nat.pow_le_pow_left (by decide) k
  have below : (n : ℚ) * 2 ^ 1075 ≤ 10 ^ k := by exact_mod_cast below
  refine .of_le_halfLeast (by positivity) ((div_le_iff₀ power).mpr ?_)
  calc (n : ℚ) = halfLeast * (n * 2 ^ 1075) := by rw [mul_left_comm, scale]; simp
    _ ≤ halfLeast * 10 ^ k := mul_le_mul_of_nonneg_left below halfLeast_pos.le

/-- The long way: a product or a quotient with all bits of the power of ten. -/
theorem exists_rounds_scientific {n : ℕ} (pos : 0 < n) (k : ℕ) :
    ∃ n' t, Rounds (n / 10 ^ k) n' t ∧
      UnpackedFloat.ofScientific Format.binary64 n (-k) = assemble .positive n' t := by
  have range : (2 : ℤ) ^ Format.binary64.exponentBits = 2048 := by
    change (2 : ℤ) ^ 11 = 2048
    norm_num
  rw [UnpackedFloat.ofScientific, dif_neg pos.ne', if_neg (by rw [range]; omega), range]
  split
  · exact ⟨0, -1074, rounds_tiny (by omega), rfl⟩
  · split
    · rename_i whole
      obtain rfl : k = 0 := by omega
      have leading : 2 ^ 52 ≤ n <<< 53 * 10 ^ 0 := by
        rw [Nat.shiftLeft_eq]
        omega
      obtain ⟨n', t, rounds, rounded⟩ :=
        roundWithAccuracy_eq (e := -53) (.exact (n <<< 53 * 10 ^ 0)) (.inl leading) .positive
      refine ⟨n', t, ?_, rounded⟩
      have bits : (2 : ℚ) ^ 53 * 2 ^ (-53 : ℤ) = 1 := by norm_num
      have value : ((n <<< 53 * 10 ^ 0 : ℕ) : ℚ) * 2 ^ (-53 : ℤ) = n / 10 ^ 0 := by
        rw [Nat.shiftLeft_eq, pow_zero, pow_zero]
        push_cast
        linear_combination n * bits
      rwa [← value]
    · have amount : (- -(k : ℤ)).toNat = k := by omega
      have power' : 0 < 10 ^ k := Nat.pow_pos (by decide)
      obtain ⟨j, quotient, enough⟩ := divCore_enough pos power' 0 0
      obtain ⟨n', t, rounds, rounded⟩ :=
        roundWithAccuracy_eq (.fraction (n * 2 ^ j) power') enough .positive
      refine ⟨n', t, ?_, ?_⟩
      · have value : ((n * 2 ^ j : ℕ) : ℚ) / (10 ^ k : ℕ) * 2 ^ (0 - 0 - j : ℤ) = n / 10 ^ k := by
          rw [sub_self, zero_sub, zpow_neg, zpow_natCast]
          push_cast
          field_simp
        rwa [← value]
      · rw [← rounded]
        simp only [div, amount, quotient]
        rfl

/-- A numeral is read as the double nearest to it. -/
theorem exists_rounds_ofDecimal {d : Decimal} (pos : 0 < d.digits) :
    ∃ n t, Rounds d.value n t ∧
      view (ofDecimal d) = view (ofView (assemble .positive n t)) := by
  rw [ofDecimal, Float.ofScientific]
  split
  · rename_i short
    exact exists_rounds_quotient ⟨d.places, Nat.lt_succ_of_le short.2⟩ pos short.1
  · obtain ⟨n, t, rounds, rounded⟩ := exists_rounds_scientific pos d.places
    refine ⟨n, t, rounds, ?_⟩
    rw [← rounded]
    rfl

/-! ## Reading back -/

/-- The shortest decimal of a positive double is read as that double. -/
theorem ofDecimal_shortest {x : Float} {m : ℕ} {e : ℤ} {pos : 0 < m}
    (h : view x = .finite .positive m e pos) : ofDecimal (magnitude x).shortest = x := by
  have stored := stored_magnitude h
  have holds := stored.holds_shortest
  have digits : 0 < (magnitude x).shortest.digits := by
    refine Nat.pos_of_ne_zero fun zero => ?_
    have positive := holds.value_pos stored
    rw [Decimal.value, zero] at positive
    simp at positive
  obtain ⟨n, t, rounds, read⟩ := exists_rounds_ofDecimal digits
  obtain ⟨narrow, magnitude, -⟩ := exists_magnitude h
  generalize (Double.magnitude x).shortest.value = v at holds rounds
  rw [magnitude] at stored holds
  have assembled : assemble .positive n t = view x :=
    (rounds.assemble_eq stored holds .positive).trans h.symm
  apply view_injective
  rw [read, assembled, ofView_view]

/-- The text of a finite double is read as that double. A zero may lose its sign. -/
theorem readsBack {x : Float} (finite : x.isFinite = true) (unsigned : ¬ x < Arith.zero) :
    ReadsBack x := by
  by_cases zero : (x == Arith.zero) = true
  · have digits := ofChars?_zero zero
    obtain ⟨s, unpacked⟩ := beq_zero_iff.mp zero
    refine ⟨⟨_, digits⟩, ?_⟩
    rw [reread, digits, Option.map_some, Option.getD_some, ofDecimal_eq (by decide), beq_eq,
      view_zero, unpacked]
    rfl
  · obtain ⟨s, m, e, pos, unpacked⟩ := exists_finite finite (Bool.not_eq_true _ ▸ zero)
    cases s with
    | negative => exact absurd ((lt_zero_iff unpacked).mpr rfl) unsigned
    | positive =>
      have digits := ofChars?_shortest unpacked
      refine ⟨⟨_, digits⟩, ?_⟩
      rw [reread, digits, Option.map_some, Option.getD_some]
      change (ofDecimal _ == x) = true
      rw [ofDecimal_shortest unpacked, beq_self finite]

end Univariate.Double
