import Univariate.Proofs.AnswerEdits
import Univariate.Proofs.UnknownNames
import Univariate.Proofs.UniqueReading

/-!
# The case of the variable

A name is put into lower case alone and a text as a whole, where a capital sigma becomes `ς` at the
end of a word and `σ` elsewhere. The rule looks at the letters around the sigma, and a letter and
its capital look alike to it. So a variable of one letter may be written in either case in all of a
text, but for the capital sigma, which at the end of a word is a letter that the variable has not.
-/
namespace Univariate

open Text

namespace Text

/-! ## A letter and its capital -/

/-- One range holds the numbers from `lo` to `hi`. -/
def covers : List (Nat × Nat) → Nat → Nat → Bool
  | [], _, _ => false
  | r :: ranges, lo, hi => Nat.ble r.1 lo && (Nat.ble hi r.2 || covers ranges lo hi)

/-- Some range holds a number from `lo` to `hi`. -/
def meets : List (Nat × Nat) → Nat → Nat → Bool
  | [], _, _ => false
  | r :: ranges, lo, hi => Nat.ble r.1 hi && (Nat.ble lo r.2 || meets ranges lo hi)

theorem within_of_covers {ranges : List (Nat × Nat)} {lo hi n : Nat}
    (h : covers ranges lo hi = true) (low : lo ≤ n) (high : n ≤ hi) : within ranges n = true := by
  induction ranges with
  | nil => cases h
  | cons r ranges ih =>
    simp only [covers, Bool.and_eq_true, Bool.or_eq_true, Nat.ble_eq] at h
    simp only [within, Bool.and_eq_true, Bool.or_eq_true, decide_eq_true_eq]
    exact ⟨by omega, h.2.imp (by omega) ih⟩

theorem meets_of_within {ranges : List (Nat × Nat)} {lo hi n : Nat}
    (h : within ranges n = true) (low : lo ≤ n) (high : n ≤ hi) : meets ranges lo hi = true := by
  induction ranges with
  | nil => cases h
  | cons r ranges ih =>
    simp only [within, Bool.and_eq_true, Bool.or_eq_true, decide_eq_true_eq] at h
    simp only [meets, Bool.and_eq_true, Bool.or_eq_true, Nat.ble_eq]
    exact ⟨by omega, h.2.imp (by omega) ih⟩

theorem within_of_not_meets {ranges : List (Nat × Nat)} {lo hi n : Nat}
    (h : meets ranges lo hi = false) (low : lo ≤ n) (high : n ≤ hi) : within ranges n = false := by
  rw [← Bool.not_eq_true] at h ⊢
  exact fun inside => h (meets_of_within inside low high)

/-- The capitals and the small letters of the run are cased. Capitals at distance two may have
numbers between them that stand for nothing, so these are looked up one by one. -/
def CaseRun.isCased (run : CaseRun) : Bool :=
  covers casedRanges run.target (run.target + (run.last - run.first)) &&
    (covers casedRanges run.first run.last ||
      (List.range (run.last + 1 - run.first)).all fun k =>
        !Nat.beq (k % run.stride) 0 || covers casedRanges (run.first + k) (run.first + k))

theorem isCased_caseRuns : caseRuns.all CaseRun.isCased = true := by decide +kernel

theorem not_meets_caseIgnorableRanges : (caseRuns.all fun run =>
    !meets caseIgnorableRanges run.first run.last &&
      !meets caseIgnorableRanges run.target (run.target + (run.last - run.first))) = true := by
  decide +kernel

/-- Both sides of a run are cased and not ignorable. -/
theorem within_caseRuns {run : CaseRun} (member : run ∈ caseRuns) {k : Nat}
    (inside : k < run.last + 1 - run.first) (step : k % run.stride = 0) :
    (within casedRanges (run.first + k) = true ∧ within casedRanges (run.target + k) = true) ∧
      within caseIgnorableRanges (run.first + k) = false ∧
        within caseIgnorableRanges (run.target + k) = false := by
  have cased := List.all_eq_true.mp isCased_caseRuns run member
  have apart := List.all_eq_true.mp not_meets_caseIgnorableRanges run member
  simp only [CaseRun.isCased, Bool.and_eq_true, Bool.or_eq_true] at cased
  simp only [Bool.and_eq_true, Bool.not_eq_true'] at apart
  refine ⟨⟨?_, within_of_covers cased.1 (by omega) (by omega)⟩,
    within_of_not_meets apart.1 (by omega) (by omega),
    within_of_not_meets apart.2 (by omega) (by omega)⟩
  rcases cased.2 with together | single
  · exact within_of_covers together (by omega) (by omega)
  · have own := List.all_eq_true.mp single k (List.mem_range.mpr inside)
    rw [step] at own
    exact within_of_covers (by simpa using own) (Nat.le_refl _) (Nat.le_refl _)

/-- A letter and its small letter look alike to a sigma. -/
theorem isCased_lowerChar {c : Char} (letter : isAlphabetic (lowerChar c) = true) :
    isCased c = isCased (lowerChar c) ∧ isCaseIgnorable c = isCaseIgnorable (lowerChar c) := by
  rcases lowerChar_cases c with ⟨-, same⟩ | ⟨run, member, k, inside, step, source, image⟩
  · rw [same]
    exact ⟨rfl, rfl⟩
  · obtain ⟨⟨capital, small⟩, capital', small'⟩ := within_caseRuns member inside step
    rw [image] at letter ⊢
    rcases toNat_ofNat (run.target + k) with code | zero
    · simp only [isCased, isCaseIgnorable, source, code, capital, small, capital', small',
        and_self]
    · rw [zero] at letter
      exact absurd letter (by decide)

/-- A name of one letter whose lower case is one letter is no dotted capital I. -/
theorem of_lower_singleton {v l : Char}
    (small : lower (String.singleton v) = String.singleton l) : v ≠ 'İ' ∧ lowerChar v = l := by
  have chars : lowerImage false v [] = [l] := by
    have := congrArg String.toList small
    simpa [lower, lowercase, lowercaseAfter] using this
  unfold lowerImage at chars
  split at chars
  · subst v
    exact ⟨by decide, (show lowerChar 'Σ' = 'σ' by decide +kernel).trans (by simpa using chars)⟩
  · split at chars
    · cases chars
    · exact ⟨‹_›, by simpa using chars⟩

/-! ## Texts that differ in the case of one letter -/

/-- `d` is `c` itself, or the capital `v` for the small letter `l`. -/
def Recased (v l c d : Char) : Prop := d = c ∨ c = l ∧ d = v

instance (v l c d : Char) : Decidable (Recased v l c d) :=
  inferInstanceAs (Decidable (_ ∨ _ ∧ _))

/-- A sigma with these texts on its two sides ends a word. -/
def EndsWord (before after : List Char) : Prop :=
  startsCased before.reverse = true ∧ startsCased after = false

instance (before after : List Char) : Decidable (EndsWord before after) :=
  inferInstanceAs (Decidable (_ ∧ _))

/-- `CapitalEndsWord before cs ds`: where the first text has a small sigma, the second has a capital
one that ends a word, both after the same text. -/
inductive CapitalEndsWord : (before cs ds : List Char) → Prop where
  | here {before cs ds : List Char} :
      EndsWord before ds → CapitalEndsWord before ('σ' :: cs) ('Σ' :: ds)
  | later {before cs ds : List Char} {c d : Char} :
      CapitalEndsWord (before ++ [d]) cs ds → CapitalEndsWord before (c :: cs) (d :: ds)

theorem CapitalEndsWord.cons_iff {before cs ds : List Char} {c d : Char} :
    CapitalEndsWord before (c :: cs) (d :: ds) ↔
      (c = 'σ' ∧ d = 'Σ' ∧ EndsWord before ds) ∨ CapitalEndsWord (before ++ [d]) cs ds := by
  constructor
  · intro h
    cases h with
    | here ends => exact .inl ⟨rfl, rfl, ends⟩
    | later rest => exact .inr rest
  · rintro (⟨rfl, rfl, ends⟩ | rest)
    · exact .here ends
    · exact .later rest

instance CapitalEndsWord.decide : (before cs ds : List Char) →
    Decidable (CapitalEndsWord before cs ds)
  | _, [], _ => isFalse fun h => by cases h
  | _, _ :: _, [] => isFalse fun h => by cases h
  | before, c :: cs, d :: ds =>
    have := CapitalEndsWord.decide (before ++ [d]) cs ds
    decidable_of_iff _ CapitalEndsWord.cons_iff.symm

/-- What the loop knows at a character is whether the nearest one before it is cased. -/
theorem startsCased_cons (c : Char) (cs : List Char) :
    startsCased (c :: cs) = if isCaseIgnorable c then startsCased cs else isCased c := by
  cases ignorable : isCaseIgnorable c <;> simp [startsCased, ignorable]

section

variable {v l : Char} {cs ds : List Char}

theorem Recased.classes (letter : isAlphabetic l = true) (small : lowerChar v = l) {c d : Char}
    (h : Recased v l c d) :
    isCased d = isCased c ∧ isCaseIgnorable d = isCaseIgnorable c := by
  rcases h with rfl | ⟨rfl, rfl⟩
  · exact ⟨rfl, rfl⟩
  · rw [← small] at letter ⊢
    exact isCased_lowerChar letter

theorem startsCased_recased (letter : isAlphabetic l = true) (small : lowerChar v = l)
    (h : List.Forall₂ (Recased v l) cs ds) : startsCased ds = startsCased cs := by
  induction h with
  | nil => rfl
  | cons first _ ih =>
    obtain ⟨cased, ignorable⟩ := first.classes letter small
    rw [startsCased_cons, startsCased_cons, cased, ignorable, ih]

/-- One step: what two characters become is the same, but for a capital sigma that ends a word. -/
theorem lowerImage_recased (letter : isAlphabetic l = true) (noDot : v ≠ 'İ')
    (small : lowerChar v = l) {c d : Char} (first : Recased v l c d)
    (rest : List.Forall₂ (Recased v l) cs ds) (before : List Char) :
    (lowerImage (startsCased before.reverse) c cs).length =
        (lowerImage (startsCased before.reverse) d ds).length ∧
      (lowerImage (startsCased before.reverse) c cs = lowerImage (startsCased before.reverse) d ds ↔
        ¬(c = 'σ' ∧ d = 'Σ' ∧ EndsWord before ds)) := by
  rcases first with rfl | ⟨rfl, rfl⟩
  · have same : lowerImage (startsCased before.reverse) d cs =
        lowerImage (startsCased before.reverse) d ds := by
      rw [lowerImage, lowerImage, startsCased_recased letter small rest]
    rw [same]
    refine ⟨rfl, iff_of_true rfl ?_⟩
    rintro ⟨rfl, capital, -⟩
    exact absurd capital (by decide)
  · have own : IsSmall c := by
      rw [← small]
      by_cases sigma : d = 'Σ'
      · subst sigma
        decide +kernel
      · have : lowerChar d ∈ lowerImage false d [] := by simp [lowerImage, sigma, noDot]
        exact isSmall_of_mem_lowerImage this
    rw [lowerImage_of_isSmall own]
    by_cases sigma : d = 'Σ'
    · obtain rfl : c = 'σ' := by
        rw [← small, sigma]
        decide +kernel
      subst sigma
      simp only [lowerImage, if_true, EndsWord, true_and]
      cases startsCased before.reverse <;> cases startsCased ds <;> simp
    · simp [lowerImage, sigma, noDot, small]

/-- Two texts that differ in the case of one letter have the same lower case, unless one of the
capitals is a sigma that ends a word. -/
theorem lowercaseAfter_recased (letter : isAlphabetic l = true) (noDot : v ≠ 'İ')
    (small : lowerChar v = l) (h : List.Forall₂ (Recased v l) cs ds) (before : List Char) :
    lowercaseAfter (startsCased before.reverse) cs =
        lowercaseAfter (startsCased before.reverse) ds ↔ ¬CapitalEndsWord before cs ds := by
  induction h generalizing before with
  | nil => exact iff_of_true rfl fun capital => by cases capital
  | @cons c d cs ds first rest ih =>
    obtain ⟨cased, ignorable⟩ := first.classes letter small
    obtain ⟨length, image⟩ := lowerImage_recased letter noDot small first rest before
    have flag : startsCased (before ++ [d]).reverse =
        if isCaseIgnorable d then startsCased before.reverse else isCased d := by
      rw [List.reverse_append]
      exact startsCased_cons d before.reverse
    rw [lowercaseAfter, lowercaseAfter, ← cased, ← ignorable, ← flag, CapitalEndsWord.cons_iff,
      not_or, ← image, ← ih]
    refine ⟨fun whole => List.append_inj whole length, fun parts => ?_⟩
    rw [parts.1, parts.2]

theorem mem_of_capitalEndsWord {before : List Char} (h : CapitalEndsWord before cs ds) :
    'ς' ∈ lowercaseAfter (startsCased before.reverse) ds := by
  induction h with
  | here ends =>
    rw [lowercaseAfter, List.mem_append]
    exact .inl (by simp [lowerImage, ends.1, ends.2])
  | @later before cs ds c d _ ih =>
    rw [List.reverse_append] at ih
    change _ ∈ lowercaseAfter (startsCased (d :: before.reverse)) ds at ih
    rw [startsCased_cons] at ih
    rw [lowercaseAfter, List.mem_append]
    exact .inr ih

/-- Only a variable `Σ` is written as a capital sigma for a small one. -/
theorem eq_of_capitalEndsWord {before : List Char} (h : CapitalEndsWord before cs ds)
    (recased : List.Forall₂ (Recased v l) cs ds) : v = 'Σ' ∧ l = 'σ' := by
  induction h with
  | here _ =>
    cases recased with
    | cons first _ =>
      rcases first with same | ⟨rfl, rfl⟩
      · exact absurd same (by decide)
      · exact ⟨rfl, rfl⟩
  | later _ ih =>
    cases recased with
    | cons _ rest => exact ih rest

end

theorem squeeze_recased {v l : Char} (letter : isAlphabetic v = true)
    (letter' : isAlphabetic l = true) {s t : String}
    (h : List.Forall₂ (Recased v l) s.toList t.toList) :
    List.Forall₂ (Recased v l) (Lexer.squeeze s) (Lexer.squeeze t) := by
  refine List.rel_filter ?_ h
  rintro c d (rfl | ⟨rfl, rfl⟩)
  · exact Iff.rfl
  · simp only [isBlank_eq_false_of_isAlphabetic letter, isBlank_eq_false_of_isAlphabetic letter']

end Text

/-! ## Tokens -/

namespace Lexer

variable {α : Type} [Numeral α]

/-- The letters of a text that is read are those of the variable and of function names. -/
theorem mem_name_of_tokenize {v input : String} {stream : List (Token α)}
    (read : tokenize v input = .ok stream) {c : Char} (member : c ∈ (clean input).toList)
    (letter : isAlphabetic c = true) :
    c ∈ (lower v).toList ∨ ∃ f : Func, c ∈ f.name.toList := by
  obtain ⟨ts, scanned, -⟩ := scan_of_tokenize read
  obtain ⟨ls, -, spelled⟩ := Lexeme.of_scan scanned
  have noStar : c ≠ '*' := by
    rintro rfl
    exact absurd letter (by decide)
  have inside : c ∈ Lexeme.spell ls := by
    rw [spelled]
    exact Answer.mem_mergePowers_of_mem noStar member
  obtain ⟨l, -, own⟩ := List.mem_flatMap.mp inside
  rw [Lexeme.isAlphabetic_of_mem own] at letter
  cases l with
  | var _ => exact .inl own
  | func f => exact .inr ⟨f, own⟩
  | number _ _ _ | op _ | opening | closing => cases letter

section

variable {v l : Char} {s t : String}

/-- No variable is `ς`: a text in which a capital sigma becomes one is refused. -/
theorem exists_error_of_capitalEndsWord
    (small : lower (String.singleton v) = String.singleton l)
    (recased : List.Forall₂ (Recased v l) (squeeze s) (squeeze t))
    (capital : CapitalEndsWord [] (squeeze s) (squeeze t)) :
    ∃ error, tokenize (α := α) (String.singleton v) t = .error error := by
  obtain ⟨-, rfl⟩ := eq_of_capitalEndsWord capital recased
  have final : 'ς' ∈ (clean t).toList := by
    rw [clean, String.toList_ofList]
    exact mem_of_capitalEndsWord capital
  cases read : tokenize (α := α) (String.singleton v) t with
  | error error => exact ⟨error, rfl⟩
  | ok stream =>
    rcases mem_name_of_tokenize read final (by decide +kernel) with own | ⟨f, named⟩
    · rw [small] at own
      exact absurd own (by decide)
    · exact absurd named (by cases f <;> decide)

/-- In any text the variable may be written in either case wherever it stands, and the tokens or the
error stay the same, unless it is a capital sigma that ends a word; then the text is refused. No
other variable of one letter has such an exception. -/
theorem tokenize_recased (letter : isAlphabetic v = true) (letter' : isAlphabetic l = true)
    (small : lower (String.singleton v) = String.singleton l)
    (recased : List.Forall₂ (Recased v l) s.toList t.toList) :
    (tokenize (α := α) (String.singleton v) s = tokenize (String.singleton v) t ↔
        ¬CapitalEndsWord [] (squeeze s) (squeeze t)) ∧
      (v ≠ 'Σ' → tokenize (α := α) (String.singleton v) s = tokenize (String.singleton v) t) ∧
      (CapitalEndsWord [] (squeeze s) (squeeze t) →
        ∃ error, tokenize (α := α) (String.singleton v) t = .error error) := by
  obtain ⟨noDot, image⟩ := of_lower_singleton small
  have shown := squeeze_recased letter letter' recased
  have cleaned := lowercaseAfter_recased letter' noDot image shown []
  have same (h : ¬CapitalEndsWord [] (squeeze s) (squeeze t)) :
      tokenize (α := α) (String.singleton v) s = tokenize (String.singleton v) t := by
    have equal : clean s = clean t := congrArg String.ofList (cleaned.mpr h)
    rw [tokenize, tokenize, equal]
  refine ⟨⟨fun equal capital => ?_, same⟩, fun other => same fun capital => ?_,
    exists_error_of_capitalEndsWord small shown⟩
  · -- both texts are refused, and each error holds its own cleaned text
    obtain ⟨error, refused⟩ := exists_error_of_capitalEndsWord (α := α) small shown capital
    obtain ⟨_, -, source⟩ := scan_of_tokenize_error refused
    obtain ⟨_, -, source'⟩ := scan_of_tokenize_error (equal.trans refused)
    have texts : clean s = clean t :=
      (congrArg ParseError.source source').symm.trans (congrArg ParseError.source source)
    have chars := congrArg String.toList texts
    rw [clean, clean, String.toList_ofList, String.toList_ofList] at chars
    exact cleaned.mp chars capital
  · exact other (eq_of_capitalEndsWord capital shown).1

end

/-- Before a letter a capital sigma is the variable, in either text of a product. -/
theorem tokenize_recased_sigma :
    tokenize (α := Float) "Σ" "σσ sin(σ)" = tokenize "Σ" "ΣΣ sin(Σ)" ∧
      tokenize (α := Float) "Σ" "ΣΣ sin(Σ)" =
        .ok [.var "σ", .op .mul, .var "σ", .op .mul, .func .sin, .opening, .var "σ", .closing] := by
  refine ⟨(tokenize_recased (α := Float) (v := 'Σ') (l := 'σ') ?_ ?_ ?_ ?_).1.mpr ?_, ?_⟩
  all_goals decide +kernel

/-- After a letter and at the end it is read as an unknown name. -/
theorem tokenize_recased_refused :
    tokenize (α := Float) "Σ" "σσ" = .ok [.var "σ", .op .mul, .var "σ"] ∧
      tokenize (α := Float) "Σ" "σΣ" = .error ⟨⟨.unknownName "ς" "σ", ⟨2, 2⟩⟩, "σς"⟩ ∧
      ¬∀ (v l : Char) (s t : String), isAlphabetic v = true → isAlphabetic l = true →
        lower (String.singleton v) = String.singleton l →
        List.Forall₂ (Recased v l) s.toList t.toList →
        tokenize (α := Float) (String.singleton v) s = tokenize (String.singleton v) t := by
  have read : tokenize (α := Float) "Σ" "σσ" = .ok [.var "σ", .op .mul, .var "σ"] := by
    decide +kernel
  have refused : tokenize (α := Float) "Σ" "σΣ" =
      .error ⟨⟨.unknownName "ς" "σ", ⟨2, 2⟩⟩, "σς"⟩ := by decide +kernel
  refine ⟨read, refused, fun either => ?_⟩
  have same := either 'Σ' 'σ' "σσ" "σΣ" (by decide +kernel) (by decide +kernel) (by decide +kernel)
    (.cons (.inl rfl) (.cons (.inr ⟨rfl, rfl⟩) .nil))
  rw [show String.singleton 'Σ' = "Σ" by decide, read, refused] at same
  cases same

end Lexer

end Univariate
