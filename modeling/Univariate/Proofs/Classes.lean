import Univariate.Token.Lexer

/-!
# Classes of characters

Letters, blanks and the characters of numerals have no character in common. Lower case leaves most
characters alone in every context; a text that it does not change is made of those.
-/
namespace Univariate

open Text

namespace Text

theorem exists_range_of_within {ranges : List (Nat × Nat)} {n : Nat}
    (h : within ranges n = true) : ∃ r ∈ ranges, r.1 ≤ n ∧ n ≤ r.2 := by
  induction ranges with
  | nil => cases h
  | cons r ranges ih =>
    simp only [within, Bool.and_eq_true, Bool.or_eq_true, decide_eq_true_eq] at h
    obtain ⟨low, high | later⟩ := h
    · exact ⟨r, by simp, low, high⟩
    · obtain ⟨s, hs, inside⟩ := ih later
      exact ⟨s, by simp [hs], inside⟩

theorem within_eq_false_of_lt {r : Nat × Nat} {ranges : List (Nat × Nat)} {n : Nat}
    (h : n < r.1) : within (r :: ranges) n = false := by
  have : ¬ r.1 ≤ n := by omega
  simp [within, this]

/-- Letters start at `A`. -/
theorem isAlphabetic_eq_false_of_lt {c : Char} (h : c.toNat < 65) : isAlphabetic c = false :=
  within_eq_false_of_lt h

theorem not_isAlphabetic_blank :
    ∀ r ∈ blankRanges, ∀ k < r.2 + 1 - r.1, within alphabeticRanges (r.1 + k) = false := by
  decide +kernel

theorem isBlank_eq_false_of_isAlphabetic {c : Char} (h : isAlphabetic c = true) :
    isBlank c = false := by
  cases blank : isBlank c with
  | false => rfl
  | true =>
    obtain ⟨r, hr, low, high⟩ := exists_range_of_within blank
    have outside := not_isAlphabetic_blank r hr (c.toNat - r.1) (by omega)
    rw [Nat.add_sub_of_le low] at outside
    rw [isAlphabetic, outside] at h
    cases h

/-- Lower case leaves the character alone, whatever stands around it. -/
def IsSmall (c : Char) : Prop := c ≠ 'Σ' ∧ c ≠ 'İ' ∧ lowerChar c = c

instance (c : Char) : Decidable (IsSmall c) :=
  inferInstanceAs (Decidable (_ ∧ _ ∧ _))

theorem lowerImage_of_isSmall {c : Char} (h : IsSmall c) (cased : Bool) (rest : List Char) :
    lowerImage cased c rest = [c] := by
  obtain ⟨noSigma, noDot, same⟩ := h
  simp [lowerImage, noSigma, noDot, same]

/-- Capitals start at `A`. -/
theorem isSmall_of_lt {c : Char} (h : c.toNat < 65) : IsSmall c := by
  refine ⟨?_, ?_, ?_⟩
  · rintro rfl; exact absurd h (by decide)
  · rintro rfl; exact absurd h (by decide)
  · have none : lowerIn caseRuns c.toNat = none := by
      unfold caseRuns
      rw [lowerIn, if_pos h]
    rw [lowerChar, none]

theorem lowercaseAfter_eq_self {cs : List Char} (small : ∀ c ∈ cs, IsSmall c) (cased : Bool) :
    lowercaseAfter cased cs = cs := by
  induction cs generalizing cased with
  | nil => rfl
  | cons c cs ih =>
    have rest : ∀ d ∈ cs, IsSmall d := fun d hd => small d (List.mem_cons_of_mem c hd)
    rw [lowercaseAfter, lowerImage_of_isSmall (small c List.mem_cons_self), ih rest]
    rfl

theorem length_le_lowercaseAfter (cased : Bool) (cs : List Char) :
    cs.length ≤ (lowercaseAfter cased cs).length := by
  induction cs generalizing cased with
  | nil => exact Nat.zero_le _
  | cons c cs ih =>
    have := ih (if isCaseIgnorable c then cased else isCased c)
    have : 1 ≤ (lowerImage cased c cs).length := by
      unfold lowerImage
      split
      · simp
      · split <;> simp
    simp only [lowercaseAfter, List.length_append, List.length_cons]
    omega

/-- A text that lower case does not change has small characters only: a capital sigma would
change, and a dotted capital I would make the text longer. -/
theorem isSmall_of_lowercaseAfter_eq_self {cs : List Char} {cased : Bool}
    (same : lowercaseAfter cased cs = cs) : ∀ c ∈ cs, IsSmall c := by
  induction cs generalizing cased with
  | nil => simp
  | cons c cs ih =>
    have longer := length_le_lowercaseAfter (if isCaseIgnorable c then cased else isCased c) cs
    have noDot : c ≠ 'İ' := by
      rintro rfl
      have := congrArg List.length same
      simp [lowercaseAfter, lowerImage] at this
      omega
    have noSigma : c ≠ 'Σ' := by
      rintro rfl
      have := congrArg List.head? same
      simp only [lowercaseAfter, lowerImage, if_true] at this
      split at this <;> simp at this
    simp only [lowercaseAfter, lowerImage, noDot, noSigma, if_false, List.singleton_append,
      List.cons.injEq] at same
    intro d hd
    rcases List.mem_cons.mp hd with rfl | hd
    · exact ⟨noSigma, noDot, same.1⟩
    · exact ih same.2 d hd

/-- Some small letter of the first run may be a capital of the other one. -/
def CaseRun.meets (run other : CaseRun) : Bool :=
  Nat.ble other.first (run.target + (run.last - run.first)) && Nat.ble run.target other.last &&
    !(Nat.beq other.stride 2 && Nat.beq ((run.target + other.first) % 2) 1 &&
      (Nat.beq run.stride 2 || Nat.beq run.first run.last))

theorem meets_caseRuns :
    (caseRuns.all fun run => caseRuns.all fun other => !run.meets other) = true := by
  decide +kernel

/-- The dotted capital I is not in the table on either side. -/
theorem ne_dotted_caseRuns : ∀ run ∈ caseRuns,
    run.target + (run.last - run.first) < 'İ'.toNat ∨ 'İ'.toNat < run.target := by
  decide +kernel

theorem lowerIn_eq_none {runs : List CaseRun} {n : Nat} (outside : ∀ run ∈ runs,
    ¬(run.first ≤ n ∧ n ≤ run.last ∧ (n - run.first) % run.stride = 0)) :
    lowerIn runs n = none := by
  induction runs with
  | nil => rfl
  | cons run runs ih =>
    have first := outside run List.mem_cons_self
    rw [lowerIn, ih fun other member => outside other (List.mem_cons_of_mem run member)]
    split
    · rfl
    · rename_i low
      rw [if_neg fun inside => first ⟨Nat.le_of_not_lt low, inside⟩]

theorem lowerIn_image {run : CaseRun} (member : run ∈ caseRuns) {k : Nat}
    (inside : k < run.last + 1 - run.first) (step : k % run.stride = 0) :
    lowerIn caseRuns (run.target + k) = none := by
  apply lowerIn_eq_none
  rintro other member' ⟨low, high, step'⟩
  have apart := List.all_eq_true.mp (List.all_eq_true.mp meets_caseRuns run member) other member'
  simp only [CaseRun.meets, Bool.not_eq_true', ← Bool.not_eq_true, Bool.and_eq_true,
    Bool.or_eq_true, Nat.beq_eq, Nat.ble_eq] at apart
  refine apart ⟨⟨by omega, by omega⟩, ?_⟩
  rintro ⟨⟨double, odd⟩, double' | single⟩
  · rw [double] at step'
    rw [double'] at step
    omega
  · rw [double] at step'
    omega

/-- A number that is no code point stands for the character zero. -/
theorem toNat_ofNat (n : Nat) : (Char.ofNat n).toNat = n ∨ Char.ofNat n = Char.ofNat 0 := by
  by_cases valid : n.isValidChar
  · left
    rw [Char.ofNat, dif_pos valid]
    rfl
  · right
    rw [Char.ofNat, dif_neg valid]
    rfl

/-- The small letters of the table are small. -/
theorem isSmall_image {run : CaseRun} (member : run ∈ caseRuns) {k : Nat}
    (inside : k < run.last + 1 - run.first) (step : k % run.stride = 0) :
    IsSmall (Char.ofNat (run.target + k)) := by
  have none := lowerIn_image member inside step
  rcases toNat_ofNat (run.target + k) with code | zero
  · refine ⟨?_, ?_, ?_⟩
    · intro sigma
      rw [← code, sigma] at none
      exact absurd none (by decide +kernel)
    · intro dotted
      rw [dotted] at code
      have := ne_dotted_caseRuns run member
      omega
    · rw [lowerChar, code, none]
  · rw [zero]
    exact isSmall_of_lt (by decide)

theorem exists_run_of_lowerIn {runs : List CaseRun} {n m : Nat} (h : lowerIn runs n = some m) :
    ∃ run ∈ runs, ∃ k < run.last + 1 - run.first, k % run.stride = 0 ∧ n = run.first + k ∧
      m = run.target + k := by
  induction runs with
  | nil => cases h
  | cons run runs ih =>
    rw [lowerIn] at h
    split at h
    · cases h
    · split at h
      · rename_i low inside
        cases h
        exact ⟨run, List.mem_cons_self, n - run.first, by omega, inside.2, by omega, rfl⟩
      · obtain ⟨other, member, image⟩ := ih h
        exact ⟨other, List.mem_cons_of_mem run member, image⟩

theorem lowerChar_cases (c : Char) :
    lowerIn caseRuns c.toNat = none ∧ lowerChar c = c ∨
      ∃ run ∈ caseRuns, ∃ k < run.last + 1 - run.first, k % run.stride = 0 ∧
        c.toNat = run.first + k ∧ lowerChar c = Char.ofNat (run.target + k) := by
  rw [lowerChar]
  cases image : lowerIn caseRuns c.toNat with
  | none => exact .inl ⟨rfl, rfl⟩
  | some n =>
    obtain ⟨run, member, k, inside, step, source, rfl⟩ := exists_run_of_lowerIn image
    exact .inr ⟨run, member, k, inside, step, source, rfl⟩

/-- The two sigmas and the two characters of the dotted capital I stand beside the table. -/
theorem mem_lowerImage {c d : Char} {cased : Bool} {rest : List Char}
    (h : d ∈ lowerImage cased c rest) :
    d ∈ ['ς', 'σ', 'i', '\u0307'] ∨ c ≠ 'Σ' ∧ c ≠ 'İ' ∧ d = lowerChar c := by
  unfold lowerImage at h
  split at h
  · obtain rfl := List.mem_singleton.mp h
    left
    split <;> simp
  · rename_i noSigma
    split at h
    · left
      rcases List.mem_cons.mp h with rfl | h
      · simp
      · obtain rfl := List.mem_singleton.mp h
        simp
    · rename_i noDot
      exact .inr ⟨noSigma, noDot, List.mem_singleton.mp h⟩

theorem isSmall_of_mem_lowerImage {c d : Char} {cased : Bool} {rest : List Char}
    (h : d ∈ lowerImage cased c rest) : IsSmall d := by
  rcases mem_lowerImage h with special | ⟨noSigma, noDot, rfl⟩
  · have small : ['ς', 'σ', 'i', '\u0307'].all (IsSmall ·) = true := by decide +kernel
    exact of_decide_eq_true (List.all_eq_true.mp small d special)
  · rcases lowerChar_cases c with ⟨none, same⟩ | ⟨run, member, k, inside, step, -, image⟩
    · rw [same]
      exact ⟨noSigma, noDot, same⟩
    · rw [image]
      exact isSmall_image member inside step

/-- No small letter of the table is a blank. -/
theorem apart_blankRanges : ∀ run ∈ caseRuns, ∀ r ∈ blankRanges,
    run.target + (run.last - run.first) < r.1 ∨ r.2 < run.target := by
  decide +kernel

theorem isBlank_image {run : CaseRun} (member : run ∈ caseRuns) {k : Nat}
    (inside : k < run.last + 1 - run.first) :
    isBlank (Char.ofNat (run.target + k)) = false := by
  rw [← Bool.not_eq_true]
  intro blank
  obtain ⟨r, hr, low, high⟩ := exists_range_of_within blank
  rcases toNat_ofNat (run.target + k) with code | zero
  · rw [code] at low high
    have := apart_blankRanges run member r hr
    omega
  · rw [zero] at blank
    exact absurd blank (by decide)

/-- Lower case makes no blank of another character. -/
theorem isBlank_of_mem_lowerImage {c d : Char} {cased : Bool} {rest : List Char}
    (visible : isBlank c = false) (h : d ∈ lowerImage cased c rest) : isBlank d = false := by
  rcases mem_lowerImage h with special | ⟨-, -, rfl⟩
  · have none : ['ς', 'σ', 'i', '\u0307'].all (!isBlank ·) = true := by decide +kernel
    simpa using List.all_eq_true.mp none d special
  · rcases lowerChar_cases c with ⟨-, same⟩ | ⟨run, member, k, inside, -, -, image⟩
    · rw [same, visible]
    · rw [image]
      exact isBlank_image member inside

/-- Lower case makes small characters of all. -/
theorem isSmall_of_mem_lowercaseAfter {cs : List Char} {cased : Bool} {d : Char}
    (h : d ∈ lowercaseAfter cased cs) : IsSmall d := by
  induction cs generalizing cased with
  | nil => cases h
  | cons c cs ih =>
    rw [lowercaseAfter] at h
    rcases List.mem_append.mp h with first | later
    · exact isSmall_of_mem_lowerImage first
    · exact ih later

theorem isBlank_of_mem_lowercaseAfter {cs : List Char} (visible : ∀ c ∈ cs, isBlank c = false)
    {cased : Bool} {d : Char} (h : d ∈ lowercaseAfter cased cs) : isBlank d = false := by
  induction cs generalizing cased with
  | nil => cases h
  | cons c cs ih =>
    rw [lowercaseAfter] at h
    rcases List.mem_append.mp h with first | later
    · exact isBlank_of_mem_lowerImage (visible c List.mem_cons_self) first
    · exact ih (fun c hc => visible c (List.mem_cons_of_mem _ hc)) later

theorem mem_lowercaseAfter {c : Char} (small : IsSmall c) {cs : List Char} (h : c ∈ cs)
    (cased : Bool) : c ∈ lowercaseAfter cased cs := by
  induction cs generalizing cased with
  | nil => cases h
  | cons d cs ih =>
    rw [lowercaseAfter, List.mem_append]
    rcases List.mem_cons.mp h with rfl | later
    · rw [lowerImage_of_isSmall small]
      exact .inl (List.mem_singleton_self c)
    · exact .inr (ih later _)

theorem mem_clean {c : Char} (small : IsSmall c) (visible : isBlank c = false) {text : String}
    (h : c ∈ text.toList) : c ∈ (clean text).toList := by
  rw [clean, String.toList_ofList]
  exact mem_lowercaseAfter small (List.mem_filter.mpr ⟨h, by simp [visible]⟩) false

theorem isSmall_of_mem_clean {c : Char} {text : String} (h : c ∈ (clean text).toList) :
    IsSmall c := by
  rw [clean, String.toList_ofList] at h
  exact isSmall_of_mem_lowercaseAfter h

theorem isBlank_of_mem_clean {c : Char} {text : String} (h : c ∈ (clean text).toList) :
    isBlank c = false := by
  rw [clean, String.toList_ofList] at h
  exact isBlank_of_mem_lowercaseAfter (fun d hd => by simpa using (List.mem_filter.mp hd).2) h

/-- A name in lower case does not change again. -/
theorem lower_lower (name : String) : lower (lower name) = lower name := by
  have small : ∀ c ∈ lowercase name.toList, IsSmall c := fun _ => isSmall_of_mem_lowercaseAfter
  rw [lower, lower, String.toList_ofList]
  exact congrArg String.ofList (lowercaseAfter_eq_self small false)

end Text

namespace Piece

/-- The characters of numerals are below `:`. -/
theorem toNat_of_isNumeric {c : Char} (h : isNumeric c = true) : 46 ≤ c.toNat ∧ c.toNat ≤ 57 := by
  simp only [isNumeric, Char.isDigit, Bool.or_eq_true, Bool.and_eq_true, beq_iff_eq,
    decide_eq_true_eq] at h
  rcases h with ⟨low, high⟩ | rfl
  · have low : 48 ≤ c.toNat := low
    have high : c.toNat ≤ 57 := high
    omega
  · decide

theorem isAlphabetic_of_isNumeric {c : Char} (h : isNumeric c = true) :
    isAlphabetic c = false :=
  isAlphabetic_eq_false_of_lt (by have := toNat_of_isNumeric h; omega)

theorem isSmall_of_isNumeric {c : Char} (h : isNumeric c = true) : IsSmall c :=
  isSmall_of_lt (by have := toNat_of_isNumeric h; omega)

theorem isBlank_of_isNumeric {c : Char} (h : isNumeric c = true) : isBlank c = false := by
  have := toNat_of_isNumeric h
  simp only [isBlank, blankRanges, within, Bool.and_eq_false_iff, Bool.or_eq_false_iff,
    decide_eq_false_iff_not]
  omega

theorem isNumeric_of_isAlphabetic {c : Char} (h : isAlphabetic c = true) :
    isNumeric c = false := by
  cases numeric : isNumeric c with
  | false => rfl
  | true => rw [isAlphabetic_of_isNumeric numeric] at h; cases h

end Piece

end Univariate
