import Mathlib.Logic.Relation
import Univariate.Proofs.Grading

/-!
# Edits that comparing answers does not see

Which answers are the same can be said without normal forms: those that can be changed into one
another by small edits. Blanks come and go, letters change case, powers change their spelling, and
product signs that stand alone come and go. The product mark of normal forms plays no part in it.

Each edit keeps the core of a text, which is its normal form without the marks, and every text can
be edited until only its core is left.
-/
namespace Univariate.Answer

open Text

/-- The nearest character before the end of a text that is not blank. -/
def before (xs : List Char) : Option Char := (xs.filter (! isBlank ·)).getLast?

/-- The nearest character from the start of a text that is not blank. -/
def after (ys : List Char) : Option Char := (ys.filter (! isBlank ·)).head?

/-- One edit, in the direction that is away from the normal form except for letters. -/
inductive Edit : List Char → List Char → Prop where
  | blank {c : Char} (xs ys : List Char) :
      isBlank c = true → Edit (xs ++ ys) (xs ++ c :: ys)
  | letter {c : Char} (xs ys : List Char) :
      c.isUpper = true → Edit (xs ++ c :: ys) (xs ++ c.toLower :: ys)
  | power (xs ys : List Char) :
      before xs ≠ some '*' → Edit (xs ++ '^' :: ys) (xs ++ '*' :: '*' :: ys)
  | star (xs ys : List Char) :
      before xs ≠ some '*' → after ys ≠ some '*' → Edit (xs ++ ys) (xs ++ '*' :: ys)

/-- Finitely many edits in either direction. -/
def Reaches : List Char → List Char → Prop :=
  Relation.ReflTransGen fun cs ds => Edit cs ds ∨ Edit ds cs

namespace Reaches

variable {as bs cs : List Char}

theorem refl (cs : List Char) : Reaches cs cs := Relation.ReflTransGen.refl

theorem edit (h : Edit as bs) : Reaches as bs := .single (.inl h)

theorem undo (h : Edit bs as) : Reaches as bs := .single (.inr h)

theorem trans (h : Reaches as bs) (h' : Reaches bs cs) : Reaches as cs :=
  Relation.ReflTransGen.trans h h'

theorem symm (h : Reaches as bs) : Reaches bs as := by
  induction h with
  | refl => exact refl as
  | tail _ edit ih => exact Relation.ReflTransGen.head edit.symm ih

end Reaches

/-! ## ASCII letters -/

theorem forall_ascii {p : Char → Prop} (all : ∀ n < 128, p (Char.ofNat n)) {c : Char}
    (h : c.toNat < 128) : p c := by
  have := all c.toNat h
  rwa [Char.ofNat_toNat] at this

theorem toNat_lt_of_isUpper {c : Char} (h : c.isUpper = true) : c.toNat < 128 := by
  have range : c.val ≥ 'A'.val ∧ c.val ≤ 'Z'.val := of_decide_eq_true h
  have : c.toNat ≤ 90 := range.2
  omega

theorem toLower_of_not_isUpper {c : Char} (h : c.isUpper = false) : c.toLower = c :=
  dif_neg (of_decide_eq_false h)

/-- Only ASCII letters differ from their small form. -/
theorem toLower_cases {p : Char → Char → Prop} (small : ∀ c, c.isUpper = false → p c c)
    (ascii : ∀ n < 128, p (Char.ofNat n) (Char.ofNat n).toLower) (c : Char) : p c c.toLower := by
  cases upper : c.isUpper with
  | false =>
    rw [toLower_of_not_isUpper upper]
    exact small c upper
  | true => exact forall_ascii (p := fun c => p c c.toLower) ascii (toNat_lt_of_isUpper upper)

theorem isBlank_toLower (c : Char) : isBlank c.toLower = isBlank c :=
  toLower_cases (p := fun c d => isBlank d = isBlank c) (fun _ _ => rfl) (by decide +kernel) c

theorem toLower_toLower (c : Char) : c.toLower.toLower = c.toLower :=
  toLower_cases (p := fun _ d => d.toLower = d) (fun _ => toLower_of_not_isUpper)
    (by decide +kernel) c

theorem toLower_eq_star {c : Char} : c.toLower = '*' ↔ c = '*' :=
  toLower_cases (p := fun c d => d = '*' ↔ c = '*') (fun _ _ => Iff.rfl) (by decide +kernel) c

/-! ## The core of a text -/

/-- Small letters without blanks. -/
def squash (cs : List Char) : List Char := (cs.filter (! isBlank ·)).map Char.toLower

def core (cs : List Char) : List Char := (mergePowers (squash cs)).filter (· ≠ '*')

theorem squash_append (xs ys : List Char) : squash (xs ++ ys) = squash xs ++ squash ys := by
  simp [squash]

theorem squash_blank {c : Char} (h : isBlank c = true) (cs : List Char) :
    squash (c :: cs) = squash cs := by
  simp [squash, h]

theorem squash_cons {c : Char} (h : isBlank c = false) (cs : List Char) :
    squash (c :: cs) = c.toLower :: squash cs := by
  simp [squash, h]

theorem getLast?_squash {xs : List Char} (h : before xs ≠ some '*') :
    (squash xs).getLast? ≠ some '*' := by
  rw [squash, List.getLast?_map]
  intro star
  obtain ⟨c, last, lower⟩ := Option.map_eq_some_iff.mp star
  rw [toLower_eq_star.mp lower] at last
  exact h last

theorem head?_squash {ys : List Char} (h : after ys ≠ some '*') :
    (squash ys).head? ≠ some '*' := by
  rw [squash, List.head?_map]
  intro star
  obtain ⟨c, head, lower⟩ := Option.map_eq_some_iff.mp star
  rw [toLower_eq_star.mp lower] at head
  exact h head

/-- Powers are merged apart from each other where no two stars meet. -/
theorem mergePowers_append {xs ys : List Char}
    (apart : xs.getLast? = some '*' → ys.head? ≠ some '*') :
    mergePowers (xs ++ ys) = mergePowers xs ++ mergePowers ys := by
  fun_induction mergePowers xs with
  | case1 xs ih =>
    have rest : xs.getLast? = some '*' → ys.head? ≠ some '*' := fun last =>
      apart (List.mem_getLast?_cons (List.mem_getLast?_cons last))
    simp [mergePowers, ih rest]
  | case2 c xs single ih =>
    have rest : xs.getLast? = some '*' → ys.head? ≠ some '*' := fun last =>
      apart (List.mem_getLast?_cons last)
    rw [List.cons_append, mergePowers.eq_2 c (xs ++ ys), ih rest, List.cons_append]
    rintro ds rfl whole
    cases xs with
    | nil => exact apart rfl (by rw [List.nil_append] at whole; rw [whole]; rfl)
    | cons x xs =>
      cases whole
      exact single xs rfl rfl
  | case3 => rfl

theorem core_eq_of_edit {cs ds : List Char} (h : Edit cs ds) : core cs = core ds := by
  cases h with
  | blank xs ys blank => simp only [core, squash_append, squash_blank blank]
  | @letter c xs ys upper =>
    have same : squash (c :: ys) = squash (c.toLower :: ys) := by
      simp only [squash, List.filter_cons, isBlank_toLower]
      split
      · rw [List.map_cons, List.map_cons, toLower_toLower]
      · rfl
    simp only [core, squash_append, same]
  | power xs ys last =>
    have lone := getLast?_squash last
    have caret : squash ('^' :: ys) = '^' :: squash ys := squash_cons (by decide) ys
    have stars : squash ('*' :: '*' :: ys) = '*' :: '*' :: squash ys := by
      rw [squash_cons (by decide), squash_cons (by decide)]
      rfl
    simp only [core, squash_append, caret, stars]
    rw [mergePowers_append fun star => absurd star lone,
      mergePowers_append fun star => absurd star lone]
    rfl
  | star xs ys last head =>
    have lone := getLast?_squash last
    have single := head?_squash head
    have star : squash ('*' :: ys) = '*' :: squash ys := squash_cons (by decide) ys
    have merged : mergePowers ('*' :: squash ys) = '*' :: mergePowers (squash ys) := by
      refine mergePowers.eq_2 '*' _ ?_
      rintro ds - whole
      exact single (by rw [whole]; rfl)
    simp only [core, squash_append, star]
    rw [mergePowers_append fun star => absurd star lone,
      mergePowers_append fun star => absurd star lone, merged]
    simp

theorem core_eq_of_reaches {cs ds : List Char} (h : Reaches cs ds) : core cs = core ds := by
  induction h with
  | refl => rfl
  | tail _ edit ih =>
    rcases edit with edit | edit
    · exact ih.trans (core_eq_of_edit edit)
    · exact ih.trans (core_eq_of_edit edit).symm

/-! ## Every text can be edited to its core -/

theorem reaches_squash (pre cs : List Char) : Reaches (pre ++ cs) (pre ++ squash cs) := by
  induction cs generalizing pre with
  | nil => exact .refl _
  | cons c cs ih =>
    cases blank : isBlank c with
    | true =>
      rw [squash_blank blank]
      exact (Reaches.undo (.blank pre cs blank)).trans (ih pre)
    | false =>
      have small : Reaches (pre ++ c :: cs) (pre ++ c.toLower :: cs) := by
        cases upper : c.isUpper with
        | true => exact .edit (.letter pre cs upper)
        | false =>
          rw [toLower_of_not_isUpper upper]
          exact .refl _
      rw [squash_cons blank]
      have later := ih (pre ++ [c.toLower])
      rw [List.append_assoc, List.append_assoc] at later
      exact small.trans later

theorem before_append_singleton {pre : List Char} {c : Char} (h : isBlank c = false) :
    before (pre ++ [c]) = some c := by
  simp [before, h]

/-- Stars are dealt with from the left, so that no star is left before them. -/
theorem reaches_mergePowers {pre cs : List Char} (lone : before pre ≠ some '*')
    (noBlank : ∀ c ∈ cs, isBlank c = false) :
    Reaches (pre ++ cs) (pre ++ (mergePowers cs).filter (· ≠ '*')) := by
  fun_induction mergePowers cs generalizing pre with
  | case1 cs ih =>
    have caret : before (pre ++ ['^']) ≠ some '*' := by
      rw [before_append_singleton (by decide)]
      decide
    have later := ih caret fun c hc => noBlank c (by simp [hc])
    rw [List.append_assoc, List.append_assoc] at later
    exact (Reaches.undo (.power pre cs lone)).trans (by simpa using later)
  | case2 c cs single ih =>
    have rest : ∀ d ∈ cs, isBlank d = false := fun d hd => noBlank d (List.mem_cons_of_mem c hd)
    by_cases star : c = '*'
    · subst star
      have next : after cs ≠ some '*' := by
        rw [after, List.filter_eq_self.mpr fun d hd => by simp [rest d hd]]
        intro head
        obtain ⟨ds, rfl⟩ := List.head?_eq_some_iff.mp head
        exact single ds rfl rfl
      exact (Reaches.undo (.star pre cs lone next)).trans (by simpa using ih lone rest)
    · have char : before (pre ++ [c]) ≠ some '*' := by
        rw [before_append_singleton (noBlank c List.mem_cons_self)]
        exact fun h => star (Option.some.inj h)
      have later := ih char rest
      rw [List.append_assoc, List.append_assoc] at later
      simpa [star] using later
  | case3 => exact .refl _

theorem isBlank_of_mem_squash {cs : List Char} : ∀ c ∈ squash cs, isBlank c = false := by
  intro c hc
  obtain ⟨d, hd, rfl⟩ := List.mem_map.mp hc
  rw [isBlank_toLower]
  simpa using List.of_mem_filter hd

theorem reaches_core (cs : List Char) : Reaches cs (core cs) :=
  (reaches_squash [] cs).trans (@reaches_mergePowers [] _ nofun isBlank_of_mem_squash)

theorem reaches_iff_core_eq {cs ds : List Char} : Reaches cs ds ↔ core cs = core ds := by
  refine ⟨core_eq_of_reaches, fun same => ?_⟩
  have right := (reaches_core ds).symm
  rw [← same] at right
  exact (reaches_core cs).trans right

/-! ## Normal forms of ASCII texts -/

theorem lowercaseAfter_of_ascii {cs : List Char} (ascii : ∀ c ∈ cs, c.toNat < 128) (cased : Bool) :
    lowercaseAfter cased cs = cs.map Char.toLower := by
  induction cs generalizing cased with
  | nil => rfl
  | cons c cs ih =>
    have first := ascii c List.mem_cons_self
    have image : lowerImage cased c cs = [c.toLower] := by
      have noSigma : c ≠ 'Σ' := by rintro rfl; exact absurd first (by decide)
      have noDot : c ≠ 'İ' := by rintro rfl; exact absurd first (by decide)
      have lower : lowerChar c = c.toLower :=
        forall_ascii (p := fun c => lowerChar c = c.toLower) (by decide +kernel) first
      rw [lowerImage, if_neg noSigma, if_neg noDot, lower]
    rw [lowercaseAfter, image, ih fun d hd => ascii d (List.mem_cons_of_mem c hd)]
    rfl

theorem mem_mergePowers {cs : List Char} {c : Char} (h : c ∈ mergePowers cs) :
    c = '^' ∨ c ∈ cs := by
  fun_induction mergePowers cs with
  | case1 cs ih =>
    rcases List.mem_cons.mp h with rfl | h
    · exact .inl rfl
    · exact (ih h).imp_right fun later => by simp [later]
  | case2 d cs _ ih =>
    rcases List.mem_cons.mp h with rfl | h
    · exact .inr List.mem_cons_self
    · exact (ih h).imp_right (List.mem_cons_of_mem d)
  | case3 => exact .inr h

theorem mem_mergePowers_of_mem {cs : List Char} {c : Char} (noStar : c ≠ '*') (h : c ∈ cs) :
    c ∈ mergePowers cs := by
  fun_induction mergePowers cs with
  | case1 cs ih => exact List.mem_cons_of_mem _ (ih (by simpa [noStar] using h))
  | case2 d cs _ ih => exact List.mem_cons.mpr ((List.mem_cons.mp h).imp_right ih)
  | case3 => exact h

theorem mark_not_mem_core {cs : List Char} (ascii : ∀ c ∈ cs, c.toNat < 128) :
    '·' ∉ core cs := by
  intro mark
  rcases mem_mergePowers (List.mem_of_mem_filter mark) with caret | small
  · exact absurd caret (by decide)
  · obtain ⟨c, hc, lower⟩ := List.mem_map.mp small
    have noMark : c.toLower ≠ '·' := forall_ascii (p := fun c => c.toLower ≠ '·')
      (by decide +kernel) (ascii c (List.mem_of_mem_filter hc))
    exact noMark lower

/-- The normal form is the core with its marks. -/
theorem normalize_of_ascii {answer : String} (ascii : ∀ c ∈ answer.toList, c.toNat < 128) :
    normalize answer = String.ofList (markProducts (core answer.toList)) := by
  rw [normalize, clean, String.toList_ofList, lowercase,
    lowercaseAfter_of_ascii fun c hc => ascii c (List.mem_of_mem_filter hc)]
  rfl

/-- Two ASCII answers are the same exactly when edits lead from one to the other. -/
theorem isSame_iff_reaches {a b : String} (left : ∀ c ∈ a.toList, c.toNat < 128)
    (right : ∀ c ∈ b.toList, c.toNat < 128) :
    isSame a b = true ↔ Reaches a.toList b.toList := by
  rw [isSame_iff, normalize_of_ascii left, normalize_of_ascii right, reaches_iff_core_eq]
  refine ⟨fun same => ?_, fun same => by rw [same]⟩
  rw [← filter_markProducts (mark_not_mem_core left), String.ofList_injective same,
    filter_markProducts (mark_not_mem_core right)]

theorem isSame_iff_reaches_powers :
    (∀ c ∈ "2 X**3".toList, c.toNat < 128) ∧ (∀ c ∈ "2*x^3".toList, c.toNat < 128) ∧
      isSame "2 X**3" "2*x^3" = true ∧ Reaches "2 X**3".toList "2*x^3".toList := by
  have left : ∀ c ∈ "2 X**3".toList, c.toNat < 128 := by simp
  have right : ∀ c ∈ "2*x^3".toList, c.toNat < 128 := by simp
  have same : isSame "2 X**3" "2*x^3" = true := by decide +kernel
  exact ⟨left, right, same, (isSame_iff_reaches left right).mp same⟩

end Univariate.Answer
