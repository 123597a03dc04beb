import Mathlib.Data.List.Forall2
import Univariate.Curve
import Univariate.Number.Double

/-!
# Segments are maximal runs

Which samples are joined can be said without the order in which they are taken: those of a longest
stretch of neighbouring indices that are all on screen. A list that is cut at its gaps from the
right keeps two things, the stretch that begins at the current index and the maximal runs behind the
gap that ends it. So the segments of a curve are the maximal runs in order, with a point for each
index.
-/
namespace Univariate

variable {β : Type}

/-- A longest stretch of indices below `n` at which `good` holds: those from `first` to just before
`stop`. -/
structure IsMaximalRun (good : Nat → Prop) (n first stop : Nat) : Prop where
  some_index : first < stop
  within : stop ≤ n
  inside : ∀ i, first ≤ i → i < stop → good i
  left : ∀ i, i + 1 = first → ¬ good i
  right : stop < n → ¬ good stop

namespace IsMaximalRun

variable {good : Nat → Prop} {n first stop : Nat}

/-- Good indices on the left of a stretch belong to it. -/
theorem exists_first {i : Nat} (here : good i) :
    ∃ first ≤ i, (∀ k, first ≤ k → k ≤ i → good k) ∧ ∀ k, k + 1 = first → ¬ good k := by
  induction i with
  | zero => exact ⟨0, Nat.le_refl 0, fun k _ le => by rwa [Nat.le_zero.mp le], by omega⟩
  | succ i ih =>
    by_cases before : good i
    · obtain ⟨first, le, inside, outside⟩ := ih before
      refine ⟨first, Nat.le_succ_of_le le, fun k low high => ?_, outside⟩
      rcases Nat.lt_or_eq_of_le high with lt | rfl
      · exact inside k low (Nat.lt_succ_iff.mp lt)
      · exact here
    · refine ⟨i + 1, Nat.le_refl _, fun k low high => ?_, fun k same => ?_⟩
      · rwa [Nat.le_antisymm high low]
      · rwa [Nat.succ.inj same]

/-- Good indices on the right of a stretch belong to it, up to the end of all indices. -/
theorem exists_stop {i : Nat} (below : i < n) (here : good i) :
    ∃ stop, i < stop ∧ stop ≤ n ∧ (∀ k, i ≤ k → k < stop → good k) ∧ (stop < n → ¬ good stop) := by
  obtain ⟨d, rfl⟩ : ∃ d, n = i + 1 + d := ⟨n - (i + 1), by omega⟩
  clear below
  induction d generalizing i with
  | zero =>
    refine ⟨i + 1, Nat.lt_succ_self i, Nat.le_refl _, fun k low high => ?_, by omega⟩
    rwa [Nat.le_antisymm (Nat.lt_succ_iff.mp high) low]
  | succ d ih =>
    by_cases next : good (i + 1)
    · obtain ⟨stop, lt, le, inside, outside⟩ := ih next
      refine ⟨stop, by omega, by omega, fun k low high => ?_, fun inner => outside (by omega)⟩
      rcases Nat.lt_or_eq_of_le low with lt | rfl
      · exact inside k lt high
      · exact here
    · refine ⟨i + 1, Nat.lt_succ_self i, by omega, fun k low high => ?_, fun _ => next⟩
      rwa [Nat.le_antisymm (Nat.lt_succ_iff.mp high) low]

/-- Neighbouring good indices are together in a maximal run. -/
theorem exists_of_good {i j : Nat} (le : i ≤ j) (below : j < n)
    (inside : ∀ k, i ≤ k → k ≤ j → good k) :
    ∃ first stop, IsMaximalRun good n first stop ∧ first ≤ i ∧ j < stop := by
  obtain ⟨first, before, onLeft, left⟩ := exists_first (inside i (Nat.le_refl i) le)
  obtain ⟨stop, after, within, onRight, right⟩ :=
    exists_stop below (inside j le (Nat.le_refl j))
  refine ⟨first, stop, ⟨by omega, within, fun k low high => ?_, left, right⟩, before, after⟩
  by_cases early : k ≤ i
  · exact onLeft k low early
  · by_cases late : j ≤ k
    · exact onRight k late high
    · exact inside k (by omega) (by omega)

/-- Two good indices are in one maximal run exactly when all indices between them are good. -/
theorem exists_iff {i j : Nat} (le : i ≤ j) (below : j < n) (first : good i) (last : good j) :
    (∃ start stop, IsMaximalRun good n start stop ∧ start ≤ i ∧ j < stop) ↔
      ∀ k, i < k → k < j → good k := by
  constructor
  · rintro ⟨start, stop, run, low, high⟩ k after before
    exact run.inside k (by omega) (by omega)
  · intro between
    apply exists_of_good le below
    intro k after before
    rcases Nat.lt_or_eq_of_le after with lt | rfl
    · rcases Nat.lt_or_eq_of_le before with lt' | rfl
      · exact between k lt lt'
      · exact last
    · exact first

/-- Of maximal runs with one beginning none goes further than another. -/
theorem stop_le {stop' : Nat} (run : IsMaximalRun good n first stop)
    (other : IsMaximalRun good n first stop') : stop ≤ stop' := by
  by_contra long
  have nonempty := other.some_index
  have within := run.within
  exact other.right (by omega) (run.inside stop' (by omega) (by omega))

end IsMaximalRun

/-! ## Cutting a list -/

/-- The points of the indices from `first` to just before `stop`. -/
def Draws (f : Nat → Option β) (first stop : Nat) (points : List β) : Prop :=
  List.Forall₂ (fun i p => f i = some p) (List.range' first (stop - first)) points

/-- The segments are drawn over the maximal runs that begin at `start` or later, in order. -/
structure DrawnOver (f : Nat → Option β) (n start : Nat) (spans : List (Nat × Nat))
    (segments : List (List β)) : Prop where
  ordered : spans.Pairwise fun r s => r.2 < s.1
  maximal : ∀ r, r ∈ spans ↔ IsMaximalRun (fun i => ∃ p, f i = some p) n r.1 r.2 ∧ start ≤ r.1
  drawn : List.Forall₂ (fun r points => Draws f r.1 r.2 points) spans segments

/-- What is kept while a list is cut: the points of the stretch from `start` on, which ends at a gap
or at the end, and the segments behind the gap. -/
structure CutAt (f : Nat → Option β) (n start stop : Nat) (run : List β)
    (spans : List (Nat × Nat)) (later : List (List β)) : Prop where
  le : start ≤ stop
  within : stop ≤ n
  drawn : Draws f start stop run
  gap : stop < n → f stop = none
  behind : DrawnOver f n (stop + 1) spans later

section

variable {f : Nat → Option β} {n start stop first : Nat} {run points : List β}
  {spans : List (Nat × Nat)} {later : List (List β)}

theorem Draws.good (h : Draws f first stop points) {i : Nat} (low : first ≤ i) (high : i < stop) :
    ∃ p, f i = some p := by
  have mem : i ∈ List.range' first (stop - first) := by
    rw [List.mem_range'_1]
    omega
  obtain ⟨k, lt, rfl⟩ := List.getElem_of_mem mem
  exact ⟨_, h.get lt (by rw [← h.length_eq]; exact lt)⟩

theorem Draws.ne_nil (h : Draws f first stop points) (lt : first < stop) : points ≠ [] := by
  rintro rfl
  have := h.length_eq
  rw [List.length_range', List.length_nil] at this
  omega

theorem Draws.cons {p : β} (h : Draws f (start + 1) stop points) (le : start + 1 ≤ stop)
    (here : f start = some p) : Draws f start stop (p :: points) := by
  have count : stop - start = (stop - (start + 1)) + 1 := by omega
  rw [Draws, count, List.range'_succ]
  exact .cons here h

/-- A maximal run begins neither inside the stretch nor at the gap behind it. -/
theorem CutAt.later_or_first (h : CutAt f n start stop run spans later) {last : Nat}
    (maximal : IsMaximalRun (fun i => ∃ p, f i = some p) n first last) (low : start ≤ first) :
    stop + 1 ≤ first ∨ first = start ∧ start < stop := by
  have index := maximal.some_index
  have inside := maximal.within
  rcases Nat.lt_trichotomy first stop with early | rfl | behind
  · refine .inr ⟨?_, by omega⟩
    by_contra later
    exact maximal.left (first - 1) (by omega) (h.drawn.good (by omega) (by omega))
  · obtain ⟨p, here⟩ := maximal.inside first (Nat.le_refl _) index
    rw [h.gap (by omega)] at here
    cases here
  · exact .inl behind

/-- A stretch that begins behind a gap is a maximal run unless it is empty, and no other one begins
in it. -/
theorem CutAt.endRun (h : CutAt f n start stop run spans later)
    (before : ∀ i, i + 1 = start → f i = none) :
    ∃ spans', DrawnOver f n start spans' (endRun run later) := by
  obtain ⟨ordered, maximal, segments⟩ := h.behind
  have noPoint {i : Nat} (none : f i = none) : ¬ ∃ p, f i = some p := by simp [none]
  cases run with
  | nil =>
    have empty : stop - start = 0 := by simpa using h.drawn.length_eq
    refine ⟨spans, ordered, fun r => ?_, segments⟩
    rw [maximal]
    refine and_congr_right fun run => ⟨fun later => ?_, fun low => ?_⟩
    · exact Nat.le_trans h.le (Nat.le_of_succ_le later)
    · rcases h.later_or_first run low with later | ⟨_, _⟩
      · exact later
      · omega
  | cons p run =>
    have lt : start < stop := by
      have := h.drawn.length_eq
      simp only [List.length_range', List.length_cons] at this
      omega
    have own : IsMaximalRun (fun i => ∃ p, f i = some p) n start stop :=
      ⟨lt, h.within, fun _ low high => h.drawn.good low high,
        fun i same => noPoint (before i same), fun inner => noPoint (h.gap inner)⟩
    refine ⟨(start, stop) :: spans, ?_, fun r => ?_, .cons h.drawn segments⟩
    · exact .cons (fun r hr => ((maximal r).mp hr).2) ordered
    · rw [List.mem_cons, maximal]
      constructor
      · rintro (rfl | ⟨run, low⟩)
        · exact ⟨own, Nat.le_refl _⟩
        · exact ⟨run, by omega⟩
      · rintro ⟨run, low⟩
        rcases h.later_or_first run low with later | ⟨same, _⟩
        · exact .inr ⟨run, later⟩
        · rw [same] at run
          exact .inl (Prod.ext same (Nat.le_antisymm (run.stop_le own) (own.stop_le run)))

/-- One sample more. -/
theorem CutAt.addSample (h : CutAt f n (start + 1) stop run spans later) :
    ∃ stop' spans', CutAt f n start stop' (addSample (f start) (run, later)).1 spans'
      (addSample (f start) (run, later)).2 := by
  cases here : f start with
  | some p =>
    exact ⟨stop, spans, by have := h.le; omega, h.within, h.drawn.cons h.le here, h.gap, h.behind⟩
  | none =>
    obtain ⟨spans', drawn⟩ := h.endRun fun i same => by rwa [Nat.succ.inj same]
    refine ⟨start, spans', Nat.le_refl _, by have := h.le; have := h.within; omega, ?_,
      fun _ => here, drawn⟩
    rw [Draws, Nat.sub_self]
    exact .nil

/-- All samples from an index on. -/
theorem exists_cutAt (f : Nat → Option β) (start count : Nat) :
    ∃ stop spans, CutAt f (start + count) start stop
      (((List.range' start count).map f).foldr addSample ([], [])).1 spans
      (((List.range' start count).map f).foldr addSample ([], [])).2 := by
  induction count generalizing start with
  | zero =>
    refine ⟨start, [], Nat.le_refl _, Nat.le_refl _, ?_, fun lt => absurd lt (Nat.lt_irrefl _),
      .nil, fun r => ?_, .nil⟩
    · rw [Draws, Nat.sub_self]
      exact .nil
    · simp only [List.not_mem_nil, false_iff, not_and]
      intro run
      have := run.some_index
      have := run.within
      omega
  | succ count ih =>
    obtain ⟨stop, spans, cut⟩ := ih (start + 1)
    rw [Nat.add_right_comm] at cut
    exact cut.addSample

/-- A list of samples is cut into its maximal runs. -/
theorem exists_drawnOver_runs (f : Nat → Option β) (n : Nat) :
    ∃ spans, DrawnOver f n 0 spans (runs ((List.range n).map f)) := by
  obtain ⟨stop, spans, cut⟩ := exists_cutAt f 0 n
  rw [Nat.zero_add] at cut
  rw [List.range_eq_range']
  exact cut.endRun (by omega)

theorem DrawnOver.not_mem_nil (h : DrawnOver f n start spans later) : [] ∉ later := by
  intro mem
  obtain ⟨k, lt, empty⟩ := List.getElem_of_mem mem
  have index : k < spans.length := by rw [h.drawn.length_eq]; exact lt
  have drawn := h.drawn.get index lt
  exact drawn.ne_nil ((h.maximal _).mp (List.get_mem spans ⟨k, index⟩)).1.some_index empty

theorem flatten_endRun (run : List β) (later : List (List β)) :
    (endRun run later).flatten = run ++ later.flatten := by
  cases run <;> rfl

theorem flatten_addSample (sample : Option β) (state : List β × List (List β)) :
    (addSample sample state).1 ++ (addSample sample state).2.flatten =
      sample.toList ++ (state.1 ++ state.2.flatten) := by
  cases sample with
  | none => exact flatten_endRun state.1 state.2
  | some p => rfl

/-- Cutting a list loses the gaps only. -/
theorem flatten_runs (samples : List (Option β)) :
    (runs samples).flatten = samples.filterMap id := by
  have kept : ((samples.foldr addSample ([], [])).1 ++
      (samples.foldr addSample ([], [])).2.flatten) = samples.filterMap id := by
    induction samples with
    | nil => rfl
    | cons sample samples ih =>
      rw [List.foldr_cons, flatten_addSample, ih]
      cases sample <;> rfl
  rw [← kept]
  exact flatten_endRun _ _

theorem mem_flatten_runs_iff {f : Nat → Option β} {n : Nat} {p : β} :
    p ∈ (runs ((List.range n).map f)).flatten ↔ ∃ i < n, f i = some p := by
  rw [flatten_runs, List.filterMap_map, List.mem_filterMap]
  simp

/-- Each point that is kept stands at the index of its sample. -/
theorem forall₂_filterMap (f : Nat → Option β) (is : List Nat) :
    List.Forall₂ (fun i p => f i = some p) (is.filter fun i => (f i).isSome) (is.filterMap f) := by
  induction is with
  | nil => exact .nil
  | cons i is ih =>
    cases here : f i with
    | none =>
      rw [List.filter_cons_of_neg (by simp [here]), List.filterMap_cons_none here]
      exact ih
    | some p =>
      rw [List.filter_cons_of_pos (by simp [here]), List.filterMap_cons_some here]
      exact .cons here ih

end

/-! ## Curves -/

namespace Viewport

variable {α : Type} [Arith α]

/-- The sample of an index is on screen, at the point `p`. -/
def Shows (v : Viewport α) (series : Series) (e : Expr α) (i : Nat) (p : Point α) : Prop :=
  ∃ y, sampleAt series e (-v.range + Arith.ofNat i * v.step) = .ok y ∧ v.yMin ≤ y ∧ y ≤ v.yMax ∧
    p = ⟨-v.range + Arith.ofNat i * v.step, y⟩

theorem point?_eq_some_iff {v : Viewport α} {series : Series} {e : Expr α} {i : Nat}
    {p : Point α} : v.point? series e i = some p ↔ v.Shows series e i p := by
  rw [point?, Shows, ← position]
  cases sampleAt series e (v.position i) with
  | error m => simp
  | ok y =>
    by_cases inside : v.yMin ≤ y ∧ y ≤ v.yMax
    · simp [shows, inside, eq_comm]
    · have outside : v.shows y = false := by
        simpa [shows] using inside
      simp only [outside]
      constructor
      · rintro ⟨⟩
      · rintro ⟨z, same, low, high, _⟩
        cases same
        exact absurd ⟨low, high⟩ inside

/-- The sample of an index is on screen. -/
def Good (v : Viewport α) (series : Series) (e : Expr α) (i : Nat) : Prop :=
  ∃ y, sampleAt series e (-v.range + Arith.ofNat i * v.step) = .ok y ∧ v.yMin ≤ y ∧ y ≤ v.yMax

theorem good_iff {v : Viewport α} {series : Series} {e : Expr α} {i : Nat} :
    v.Good series e i ↔ ∃ p, v.point? series e i = some p := by
  simp only [point?_eq_some_iff]
  constructor
  · rintro ⟨y, value, low, high⟩
    exact ⟨_, y, value, low, high, rfl⟩
  · rintro ⟨_, y, value, low, high, _⟩
    exact ⟨y, value, low, high⟩

theorem curve_of_sampleCount {v : Viewport α} {n : Nat} (accepted : v.sampleCount = .ok n)
    (series : Series) (e : Expr α) :
    v.curve series e = .ok (runs ((List.range n).map (v.point? series e))) := by
  rw [curve, accepted]
  rfl

/-- In an accepted viewport the segments of the curve are drawn over the maximal runs of indices
that are on screen, in increasing order, each index at its own point. So no segment is empty, the
points of all segments are those of all good indices in order, and two good indices are in one
segment exactly when all indices between them are good. -/
theorem curve_eq_maximalRuns {v : Viewport α} {n : Nat} (accepted : v.sampleCount = .ok n)
    (series : Series) (e : Expr α) :
    ∃ (segments : List (Segment α)) (spans : List (Nat × Nat)), v.curve series e = .ok segments ∧
      (spans.Pairwise fun r s => r.2 < s.1) ∧
      (∀ r, r ∈ spans ↔ IsMaximalRun (v.Good series e) n r.1 r.2) ∧
      List.Forall₂ (fun r segment =>
        List.Forall₂ (v.Shows series e) (List.range' r.1 (r.2 - r.1)) segment) spans segments ∧
      [] ∉ segments ∧
      (∃ indices : List Nat, indices.Pairwise (· < ·) ∧
        (∀ i, i ∈ indices ↔ i < n ∧ v.Good series e i) ∧
        List.Forall₂ (v.Shows series e) indices segments.flatten) ∧
      ∀ i j, i ≤ j → j < n → v.Good series e i → v.Good series e j →
        ((∃ r ∈ spans, r.1 ≤ i ∧ j < r.2) ↔ ∀ k, i < k → k < j → v.Good series e k) := by
  obtain ⟨spans, drawn⟩ := exists_drawnOver_runs (v.point? series e) n
  have good : (fun i => ∃ p, v.point? series e i = some p) = v.Good series e :=
    funext fun i => propext good_iff.symm
  have shown : (fun i p => v.point? series e i = some p) = v.Shows series e :=
    funext fun i => funext fun p => propext point?_eq_some_iff
  have maximal : ∀ r, r ∈ spans ↔ IsMaximalRun (v.Good series e) n r.1 r.2 := by
    intro r
    rw [drawn.maximal, good]
    exact and_iff_left (Nat.zero_le _)
  refine ⟨_, spans, curve_of_sampleCount accepted series e, drawn.ordered, maximal, ?_,
    drawn.not_mem_nil, ?_, ?_⟩
  · rw [← shown]
    exact drawn.drawn
  · refine ⟨(List.range n).filter fun i => (v.point? series e i).isSome,
      List.pairwise_lt_range.filter _, fun i => ?_, ?_⟩
    · rw [List.mem_filter, List.mem_range, good_iff, Option.isSome_iff_exists]
    · rw [flatten_runs, List.filterMap_map, ← shown]
      exact forall₂_filterMap (v.point? series e) (List.range n)
  · intro i j le below first last
    rw [← IsMaximalRun.exists_iff le below first last, Prod.exists]
    simp only [maximal]

/-- The hyperbola, which has no value at zero. -/
def reciprocal : Expr Float := .bin .div (.num 1) (.var "x")

/-- Five samples, of which the one in the middle is at zero. -/
def unit : Viewport Float := ⟨1, 0.5, -12.5, 12.5⟩

theorem curve_eq_maximalRuns_reciprocal :
    unit.sampleCount = .ok 5 ∧ ∃ spans : List (Nat × Nat),
      (∀ r, r ∈ spans ↔ IsMaximalRun (unit.Good .function reciprocal) 5 r.1 r.2) ∧
      List.Forall₂ (fun r segment =>
        List.Forall₂ (unit.Shows .function reciprocal) (List.range' r.1 (r.2 - r.1)) segment) spans
        [[⟨-1, -1⟩, ⟨-0.5, -2⟩], [⟨0.5, 2⟩, ⟨1, 1⟩]] := by
  have accepted : unit.sampleCount = .ok 5 := by decide +kernel
  have drawn : unit.curve .function reciprocal =
      .ok [[⟨-1, -1⟩, ⟨-0.5, -2⟩], [⟨0.5, 2⟩, ⟨1, 1⟩]] := by
    decide +kernel
  obtain ⟨segments, spans, run, _, maximal, shown, _⟩ :=
    curve_eq_maximalRuns accepted .function reciprocal
  rw [drawn] at run
  cases run
  exact ⟨accepted, spans, maximal, shown⟩

end Viewport

end Univariate
