import Univariate.Proofs.AnswerEdits

/-!
# Normal forms of answers

A normal form can be told by its characters: they are small, there is no blank and no star among
them, and a digit never stands before a letter. Every answer is brought into such a form, and a
text that has it already stays as it is. So the passes that come later leave nothing for those
that come earlier, although they bring characters together.
-/
namespace Univariate.Answer

open Text Lexer

structure IsNormal (cs : List Char) : Prop where
  small : ∀ c ∈ cs, IsSmall c
  visible : ∀ c ∈ cs, isBlank c = false
  noStar : '*' ∉ cs
  marked : cs.IsChain fun c d => ¬(c.isDigit = true ∧ d.isAlpha = true)

/-! ## What is in normal form stays -/

theorem mergePowers_eq_self {cs : List Char} (noStar : '*' ∉ cs) : mergePowers cs = cs := by
  fun_induction mergePowers cs with
  | case1 cs => exact absurd List.mem_cons_self noStar
  | case2 c cs _ ih => rw [ih fun star => noStar (List.mem_cons_of_mem c star)]
  | case3 => rfl

theorem markProducts_eq_self {cs : List Char}
    (marked : cs.IsChain fun c d => ¬(c.isDigit = true ∧ d.isAlpha = true)) :
    markProducts cs = cs := by
  fun_induction markProducts cs with
  | case1 c d cs meet ih => exact absurd (by simpa using meet) (List.isChain_cons_cons.mp marked).1
  | case2 c d cs _ ih => rw [ih (List.isChain_cons_cons.mp marked).2]
  | case3 => rfl

theorem normalize_of_isNormal {answer : String} (h : IsNormal answer.toList) :
    normalize answer = answer := by
  have squeezed : squeeze answer = answer.toList := squeeze_eq_toList h.visible
  have cleaned : (clean answer).toList = answer.toList := by
    rw [toList_clean (by rw [squeezed]; exact h.small), squeezed]
  have unstarred : answer.toList.filter (· ≠ '*') = answer.toList :=
    List.filter_eq_self.mpr fun c hc => by
      have other : c ≠ '*' := ne_of_mem_of_not_mem hc h.noStar
      simp [other]
  rw [normalize, normalChars, cleaned, mergePowers_eq_self h.noStar, unstarred,
    markProducts_eq_self h.marked, String.ofList_toList]

/-! ## What is brought into normal form -/

theorem mem_markProducts {cs : List Char} {c : Char} (h : c ∈ markProducts cs) :
    c = '·' ∨ c ∈ cs := by
  fun_induction markProducts cs with
  | case1 d e cs _ ih =>
    rcases List.mem_cons.mp h with rfl | h
    · exact .inr List.mem_cons_self
    · rcases List.mem_cons.mp h with rfl | h
      · exact .inl rfl
      · exact (ih h).imp_right (List.mem_cons_of_mem d)
  | case2 d e cs _ ih =>
    rcases List.mem_cons.mp h with rfl | h
    · exact .inr List.mem_cons_self
    · exact (ih h).imp_right (List.mem_cons_of_mem d)
  | case3 => exact .inr h

theorem head?_markProducts (cs : List Char) : (markProducts cs).head? = cs.head? := by
  fun_cases markProducts cs <;> rfl

/-- The mark is neither a digit nor a letter, so none of its neighbours need another one. -/
theorem isChain_markProducts (cs : List Char) :
    (markProducts cs).IsChain fun c d => ¬(c.isDigit = true ∧ d.isAlpha = true) := by
  fun_induction markProducts cs with
  | case1 c d cs _ ih =>
    have before : ¬(c.isDigit = true ∧ '·'.isAlpha = true) := fun h => absurd h.2 (by decide)
    have after : ∀ e ∈ (markProducts (d :: cs)).head?,
        ¬('·'.isDigit = true ∧ e.isAlpha = true) := fun _ _ h => absurd h.1 (by decide)
    exact List.isChain_cons_cons.mpr ⟨before, List.isChain_cons.mpr ⟨after, ih⟩⟩
  | case2 c d cs apart ih =>
    refine List.isChain_cons.mpr ⟨fun e next => ?_, ih⟩
    rw [head?_markProducts] at next
    obtain rfl := Option.some.inj next
    simpa using apart
  | case3 cs short =>
    cases cs with
    | nil => exact .nil
    | cons c cs =>
      cases cs with
      | nil => exact .singleton c
      | cons d cs => exact absurd rfl (short c d cs)

theorem mem_normalChars {cs : List Char} {c : Char} (h : c ∈ normalChars cs) :
    c ∈ ['·', '^'] ∨ c ∈ cs := by
  rcases mem_markProducts h with rfl | inside
  · simp
  · rcases mem_mergePowers (List.mem_filter.mp inside).1 with rfl | inside
    · simp
    · exact .inr inside

theorem star_not_mem_normalChars (cs : List Char) : '*' ∉ normalChars cs := by
  intro star
  rcases mem_markProducts star with mark | inside
  · exact absurd mark (by decide)
  · exact absurd (List.mem_filter.mp inside).2 (by decide)

theorem isNormal_normalize (answer : String) : IsNormal (normalize answer).toList := by
  have signs : ['·', '^'].all (fun c => decide (IsSmall c) && !isBlank c) = true := by
    decide +kernel
  have sign {c : Char} (h : c ∈ ['·', '^']) : IsSmall c ∧ isBlank c = false := by
    simpa using List.all_eq_true.mp signs c h
  rw [normalize, String.toList_ofList]
  refine ⟨fun c hc => ?_, fun c hc => ?_, star_not_mem_normalChars _, isChain_markProducts _⟩
  · exact (mem_normalChars hc).elim (fun h => (sign h).1) isSmall_of_mem_clean
  · exact (mem_normalChars hc).elim (fun h => (sign h).2) isBlank_of_mem_clean

/-- The normal forms are exactly the texts that normalizing leaves alone. -/
theorem normalize_eq_self_iff {answer : String} :
    normalize answer = answer ↔ IsNormal answer.toList :=
  ⟨fun same => same ▸ isNormal_normalize answer, normalize_of_isNormal⟩

theorem normalize_idempotent (answer : String) :
    normalize (normalize answer) = normalize answer ∧ '*' ∉ (normalize answer).toList ∧
      (∀ c ∈ (normalize answer).toList, isBlank c = false) ∧
      (normalize answer).toList.IsChain fun c d => ¬(c.isDigit = true ∧ d.isAlpha = true) := by
  have normal := isNormal_normalize answer
  exact ⟨normalize_of_isNormal normal, normal.noStar, normal.visible, normal.marked⟩

end Univariate.Answer
