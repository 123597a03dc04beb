import Mathlib.Data.Set.Card
import Mathlib.Tactic.Linarith
import Mathlib.Tactic.Positivity
import Univariate.Proofs.ExactTerms
import Univariate.Proofs.Segments

/-!
# The sampling grid

In exact arithmetic the samples of a viewport are the points that are reached from the left end of
its range in whole steps, up to the right end and a slack of a billionth of a step. How many there
are is decided by comparing an index with a quotient, which is the same as comparing its point with
that bound. A viewport is refused exactly when there are too many of them.
-/
namespace Univariate

namespace Viewport

/-- The points that are reached from the left end of the range `r` in whole steps of `s`. -/
def grid (r s : ℚ) : Set ℚ := {x | ∃ i : ℕ, x = -r + i * s}

/-- The grid as far as samples are taken. The slack is a part of the step, so it does not grow with
the number of steps. -/
def reach (r s : ℚ) : Set ℚ := grid r s ∩ Set.Iic (r + s / 10 ^ 9)

/-- The positions of the first `n` samples. -/
def sampled {α : Type} [Arith α] (v : Viewport α) (n : ℕ) : Set α := {x | ∃ i < n, v.position i = x}

/-- The index of the last point within reach. -/
def lastIndex (r s : ℚ) : ℕ := (2 * r / s + 1 / 10 ^ 9).floor.toNat

variable {v : Viewport Exact} {r s : ℚ}

theorem steps_nonneg (nonneg : 0 ≤ r) (positive : 0 < s) :
    0 ≤ (2 * r / s + 1 / 10 ^ 9).floor := by
  rw [Rat.le_floor_iff]
  have whole : 0 ≤ 2 * r / s := div_nonneg (mul_nonneg zero_le_two nonneg) positive.le
  have slack : (0 : ℚ) ≤ 1 / 10 ^ 9 := by norm_num
  exact_mod_cast add_nonneg whole slack

/-- An index is within the quotient when its point is within reach. -/
theorem le_lastIndex_iff (nonneg : 0 ≤ r) (positive : 0 < s) {i : ℕ} :
    i ≤ lastIndex r s ↔ -r + i * s ≤ r + s / 10 ^ 9 := by
  have scaled : (2 * r / s + 1 / 10 ^ 9) * s = 2 * r + s / 10 ^ 9 := by
    rw [add_mul, div_mul_cancel₀ _ positive.ne', one_div_mul_eq_div]
  calc i ≤ lastIndex r s
      ↔ (i : ℤ) ≤ (2 * r / s + 1 / 10 ^ 9).floor := by
        rw [lastIndex, Int.le_toNat (steps_nonneg nonneg positive)]
    _ ↔ (i : ℚ) ≤ 2 * r / s + 1 / 10 ^ 9 := by
        rw [Rat.le_floor_iff, Int.cast_natCast]
    _ ↔ i * s ≤ 2 * r + s / 10 ^ 9 := by
        rw [← scaled, mul_le_mul_iff_left₀ positive]
    _ ↔ -r + i * s ≤ r + s / 10 ^ 9 := by
        constructor <;> intro <;> linarith

theorem position_exact (range : v.range = .rational r) (step : v.step = .rational s) (i : ℕ) :
    v.position i = .rational (-r + i * s) := by
  rw [position, range, step]
  rfl

/-- The quotient and its floor are taken without rounding. -/
theorem steps_exact (range : v.range = .rational r) (step : v.step = .rational s)
    (nonneg : 0 ≤ r) (positive : 0 < s) : v.steps = .rational (lastIndex r s) := by
  have quotient : v.steps = .rational (2 * r / s + 1 / 10 ^ 9).floor := by
    rw [steps, range, step]
    change Arith.floor (Exact.rational (2 * r) / Exact.rational s + slack) = _
    rw [Exact.rational_div positive.ne']
    have billionth : (slack : Exact) = .rational (1 / 10 ^ 9) := by decide +kernel
    rw [billionth]
    rfl
  rw [quotient, lastIndex]
  congr 1
  exact_mod_cast (Int.toNat_of_nonneg (steps_nonneg nonneg positive)).symm

/-- A number of steps is read as a natural number up to far beyond the limit on samples. -/
theorem filter_toNat? (n : ℕ) : (Arith.toNat? (Exact.rational n)).filter (· < maxSamples) =
    if n < maxSamples then some n else none := by
  have far : maxSamples ≤ Arith.maxNat := by decide
  rw [Exact.toNat?_natCast]
  by_cases small : n ≤ Arith.maxNat
  · rw [if_pos small, Option.filter_some]
    simp
  · rw [if_neg small, if_neg (by omega), Option.filter_none]

/-- The limit is tested on the steps, and there is one sample more. -/
theorem sampleCount_exact (range : v.range = .rational r) (step : v.step = .rational s)
    (nonneg : 0 ≤ r) (positive : 0 < s) :
    v.sampleCount = if lastIndex r s < maxSamples then .ok (lastIndex r s + 1)
      else .error (.tooManySamples (.rational ↑(lastIndex r s + 1))) := by
  have validStep : Arith.isStep v.step = true := by
    rw [step]
    exact Exact.isStep_rational positive
  have validRange : (Arith.isFinite v.range && decide (Arith.zero ≤ v.range)) = true := by
    rw [range]
    change (true && decide ((0 : ℚ) ≤ r)) = true
    simpa using nonneg
  have next : Exact.rational (lastIndex r s) + Arith.one = .rational ↑(lastIndex r s + 1) := by
    rw [Nat.cast_add_one]
    rfl
  rw [sampleCount, validStep, validRange, steps_exact range step nonneg positive, filter_toNat?,
    next]
  by_cases fits : lastIndex r s < maxSamples <;> simp [fits]

/-! ## The points within reach -/

/-- A point of the grid is within reach when its index is. -/
theorem mem_reach_iff (nonneg : 0 ≤ r) (positive : 0 < s) {x : ℚ} :
    x ∈ reach r s ↔ ∃ i < lastIndex r s + 1, -r + i * s = x := by
  constructor
  · rintro ⟨⟨i, rfl⟩, within⟩
    exact ⟨i, Nat.lt_succ_of_le ((le_lastIndex_iff nonneg positive).mpr within), rfl⟩
  · rintro ⟨i, lt, rfl⟩
    exact ⟨⟨i, rfl⟩, (le_lastIndex_iff nonneg positive).mp (Nat.le_of_lt_succ lt)⟩

theorem mem_reach_of_le (positive : 0 < s) {x : ℚ} (onGrid : x ∈ grid r s) (inside : x ≤ r) :
    x ∈ reach r s := by
  have slack : 0 ≤ s / 10 ^ 9 := by positivity
  exact ⟨onGrid, inside.trans (le_add_of_nonneg_right slack)⟩

/-- No two indices have the same point. -/
theorem point_injective (r : ℚ) (positive : 0 < s) :
    Function.Injective fun i : ℕ => -r + i * s := by
  intro i j same
  have product : (i : ℚ) * s = j * s := add_left_cancel same
  exact_mod_cast mul_right_cancel₀ positive.ne' product

theorem encard_reach (nonneg : 0 ≤ r) (positive : 0 < s) :
    (reach r s).encard = ↑(lastIndex r s + 1) := by
  have image : reach r s = (fun i : ℕ => -r + i * s) '' Set.Iio (lastIndex r s + 1) :=
    Set.ext fun x => mem_reach_iff nonneg positive
  rw [image, (point_injective r positive).encard_image, ← Finset.coe_range,
    Set.encard_coe_eq_coe_finsetCard, Finset.card_range]

theorem sampled_eq_reach (range : v.range = .rational r) (step : v.step = .rational s)
    (nonneg : 0 ≤ r) (positive : 0 < s) :
    v.sampled (lastIndex r s + 1) = Exact.rational '' reach r s := by
  ext x
  simp only [sampled, position_exact range step, Set.mem_ofPred_eq, Set.mem_image,
    mem_reach_iff nonneg positive]
  constructor
  · rintro ⟨i, lt, rfl⟩
    exact ⟨_, ⟨i, lt, rfl⟩, rfl⟩
  · rintro ⟨_, ⟨i, lt, rfl⟩, rfl⟩
    exact ⟨i, lt, rfl⟩

/-- The points of a curve are the values on screen at the sampled positions. -/
theorem mem_runs_point?_iff {α : Type} [Arith α] {v : Viewport α} {series : Series} {e : Expr α}
    {n : ℕ} {p : Point α} : p ∈ (runs ((List.range n).map (v.point? series e))).flatten ↔
      p.x ∈ v.sampled n ∧ sampleAt series e p.x = .ok p.y ∧ v.yMin ≤ p.y ∧ p.y ≤ v.yMax := by
  rw [mem_flatten_runs_iff]
  simp only [point?_eq_some_iff]
  constructor
  · rintro ⟨i, lt, y, value, low, high, rfl⟩
    exact ⟨⟨i, lt, rfl⟩, value, low, high⟩
  · rintro ⟨⟨i, lt, here⟩, value, low, high⟩
    refine ⟨i, lt, p.y, ?_, low, high, ?_⟩
    · rwa [← position, here]
    · rw [← position, here]

/-- In exact arithmetic a viewport whose range is not negative and whose step is positive is either
sampled, once at each point of the grid up to the right end of the range and a billionth of a step,
or refused with the number of those points, when they are more than the limit. The curve has a point
wherever a sample is on screen, and no other. -/
theorem sampleCount_completes_grid (range : v.range = .rational r) (step : v.step = .rational s)
    (nonneg : 0 ≤ r) (positive : 0 < s) :
    ∃ n : ℕ, (reach r s).encard = n ∧
      ((v.sampleCount = .ok n ∧ 1 ≤ n ∧ n ≤ maxSamples ∧
          v.sampled n = Exact.rational '' reach r s ∧
          (∀ x ∈ grid r s, x ∈ Set.Icc (-r) r → .rational x ∈ v.sampled n) ∧
          (∀ x, .rational x ∈ v.sampled n → x - r ≤ s / 10 ^ 9) ∧
          ∀ series e, ∃ segments, v.curve series e = .ok segments ∧ ∀ p, p ∈ segments.flatten ↔
            p.x ∈ v.sampled n ∧ sampleAt series e p.x = .ok p.y ∧ v.yMin ≤ p.y ∧ p.y ≤ v.yMax) ∨
        (v.sampleCount = .error (.tooManySamples (.rational n)) ∧ maxSamples < n ∧
          ∀ series e, v.curve series e = .error (.tooManySamples (.rational n)))) := by
  have all := sampled_eq_reach range step nonneg positive
  have count := sampleCount_exact range step nonneg positive
  refine ⟨lastIndex r s + 1, encard_reach nonneg positive, ?_⟩
  by_cases fits : lastIndex r s < maxSamples
  · rw [if_pos fits] at count
    have complete (x : ℚ) (onGrid : x ∈ grid r s) (inside : x ∈ Set.Icc (-r) r) :
        .rational x ∈ v.sampled (lastIndex r s + 1) := by
      rw [all]
      exact Set.mem_image_of_mem _ (mem_reach_of_le positive onGrid inside.2)
    have bounded (x : ℚ) (mem : .rational x ∈ v.sampled (lastIndex r s + 1)) :
        x - r ≤ s / 10 ^ 9 := by
      rw [all] at mem
      obtain ⟨y, ⟨-, within⟩, same⟩ := mem
      cases same
      exact sub_le_iff_le_add'.mpr within
    exact .inl ⟨count, Nat.le_add_left 1 _, fits, all, complete, bounded,
      fun series e => ⟨_, curve_of_sampleCount count series e, fun _ => mem_runs_point?_iff⟩⟩
  · rw [if_neg fits] at count
    refine .inr ⟨count, Nat.lt_succ_of_le (Nat.le_of_not_lt fits), fun series e => ?_⟩
    rw [curve, count]
    rfl

/-- Two steps of which the second ends beyond the range, by exactly the slack. -/
def edge : Viewport Exact :=
  ⟨.rational (999999999 / 2000000000), .rational 1, .undefined, .undefined⟩

/-- A million steps, and so one sample too many. -/
def crowded : Viewport Exact := ⟨.rational 62500, .rational (1 / 8), .undefined, .undefined⟩

theorem sampleCount_completes_grid_edge :
    edge.sampleCount = .ok 2 ∧ (reach (999999999 / 2000000000) 1).encard = 2 ∧
      edge.sampled 2 = Exact.rational '' reach (999999999 / 2000000000) 1 ∧
      crowded.sampleCount = .error (.tooManySamples (.rational 1000001)) ∧
      (reach 62500 (1 / 8)).encard = 1000001 := by
  have two : edge.sampleCount = .ok 2 := by decide +kernel
  have many : crowded.sampleCount = .error (.tooManySamples (.rational 1000001)) := by
    decide +kernel
  obtain ⟨n, points, accepted⟩ :=
    sampleCount_completes_grid (v := edge) rfl rfl (by norm_num) one_pos
  obtain ⟨m, others, refused⟩ :=
    sampleCount_completes_grid (v := crowded) rfl rfl (by norm_num) (by norm_num)
  rw [two] at accepted
  rw [many] at refused
  obtain ⟨same, -, -, all, -⟩ | ⟨⟨⟩, -⟩ := accepted
  obtain ⟨⟨⟩, -⟩ | ⟨count, -⟩ := refused
  cases same
  simp only [Except.error.injEq, ViewportError.tooManySamples.injEq, Exact.rational.injEq] at count
  have count : m = 1000001 := by exact_mod_cast count.symm
  rw [count] at others
  exact ⟨two, points, all, many, others⟩

end Viewport

end Univariate
