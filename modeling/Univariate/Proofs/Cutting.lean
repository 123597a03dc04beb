import Univariate.Proofs.Classes

/-!
# Where texts are cut

Two neighbouring characters may stand in one piece only if they are both of numerals, both letters
or both stars. Between any other two a text falls apart, so the pieces of a text that is put
together are those of its parts.
-/
namespace Univariate

open Text

namespace Piece

/-- Whether two neighbours may stand in one piece. -/
def glued (c d : Char) : Bool :=
  (isNumeric c && isNumeric d) || (isAlphabetic c && isAlphabetic d) || (c == '*' && d == '*')

/-- No piece goes across from one text to the next. -/
def Apart (xs ys : List Char) : Prop :=
  ∀ c ∈ xs.getLast?, ∀ d ∈ ys.head?, glued c d = false

/-- What the characters of a piece are. -/
def WellFormed : Piece → Prop
  | number c cs => ∀ d ∈ c :: cs, isNumeric d = true
  | word c cs => ∀ d ∈ c :: cs, isAlphabetic d = true
  | power => True
  | single c => isNumeric c = false ∧ isAlphabetic c = false

/-- Putting a character before pieces makes one well-formed piece and leaves the others. -/
theorem exists_cons {c : Char} {pieces : List Piece} (wf : ∀ q ∈ pieces, q.WellFormed) :
    ∃ q rest, cons c pieces = q :: rest ∧ q.WellFormed ∧ ∀ p ∈ rest, p ∈ pieces := by
  unfold cons
  split
  · rename_i numeric
    split
    · have first := wf _ List.mem_cons_self
      exact ⟨_, _, rfl, by simp_all [WellFormed], fun _ => List.mem_cons_of_mem _⟩
    · exact ⟨_, _, rfl, by simpa [WellFormed] using numeric, fun _ h => h⟩
  · split
    · rename_i letter
      split
      · have first := wf _ List.mem_cons_self
        exact ⟨_, _, rfl, by simp_all [WellFormed], fun _ => List.mem_cons_of_mem _⟩
      · exact ⟨_, _, rfl, by simpa [WellFormed] using letter, fun _ h => h⟩
    · exact ⟨_, _, rfl, by simp_all [WellFormed], fun _ h => h⟩

theorem wellFormed_of_mem_ofChars {cs : List Char} {p : Piece} (h : p ∈ ofChars cs) :
    p.WellFormed := by
  fun_induction ofChars cs generalizing p with
  | case1 => cases h
  | case2 cs ih =>
    rcases List.mem_cons.mp h with rfl | h
    · trivial
    · exact ih h
  | case3 c cs _ ih =>
    obtain ⟨q, rest, same, wf, others⟩ := @exists_cons c _ fun q hq => ih hq
    rw [same] at h
    rcases List.mem_cons.mp h with rfl | h
    · exact wf
    · exact ih (others p h)

theorem head?_chars (p : Piece) : p.chars.head? = some p.first := by cases p <;> rfl

/-- The first piece of a text starts with its first character. -/
theorem first_of_mem_head? {cs : List Char} {p : Piece} (h : p ∈ (ofChars cs).head?) :
    cs.head? = some p.first := by
  obtain ⟨pieces, hp⟩ := List.head?_eq_some_iff.mp h
  have := flatMap_chars_ofChars cs
  rw [hp] at this
  rw [← this, List.flatMap_cons, List.head?_append, head?_chars]
  rfl

theorem ofChars_ne_nil {cs : List Char} (h : cs ≠ []) : ofChars cs ≠ [] := by
  intro empty
  have := flatMap_chars_ofChars cs
  rw [empty] at this
  exact h this.symm

theorem cons_append_of_ne_nil (c : Char) {pieces : List Piece} (h : pieces ≠ [])
    (more : List Piece) : cons c (pieces ++ more) = cons c pieces ++ more := by
  obtain ⟨p, ps, rfl⟩ := List.exists_cons_of_ne_nil h
  unfold cons
  split
  · cases p <;> rfl
  · split
    · cases p <;> rfl
    · rfl

/-- A character that the first piece does not take in stays a piece of its own. -/
theorem cons_of_not_glued {c : Char} {pieces : List Piece} (wf : ∀ q ∈ pieces, q.WellFormed)
    (h : ∀ p ∈ pieces.head?, glued c p.first = false) : cons c pieces = cons c [] ++ pieces := by
  cases pieces with
  | nil => simp
  | cons p ps =>
    have loose := h p rfl
    have shape := wf p List.mem_cons_self
    clear wf
    cases numeric : isNumeric c <;> cases letter : isAlphabetic c <;> cases p <;>
      simp_all [cons, glued, first, WellFormed]

theorem ofChars_cons_of_not_glued {c : Char} {cs : List Char}
    (h : ∀ d ∈ cs.head?, glued c d = false) : ofChars (c :: cs) = cons c (ofChars cs) := by
  refine ofChars.eq_3 c cs ?_
  rintro ds rfl rfl
  exact absurd (h '*' rfl) (by decide)

/-- A text falls apart where two neighbours are not glued. -/
theorem ofChars_append {xs ys : List Char} (apart : Apart xs ys) :
    ofChars (xs ++ ys) = ofChars xs ++ ofChars ys := by
  fun_induction ofChars xs with
  | case1 => rfl
  | case2 xs ih =>
    have rest : Apart xs ys := by
      intro c hc
      refine apart c ?_
      cases xs with
      | nil => cases hc
      | cons x xs => simpa using hc
    simp [ofChars, ih rest]
  | case3 c xs single ih =>
    cases xs with
    | nil =>
      have loose : ∀ d ∈ ys.head?, glued c d = false := apart c (by simp)
      simp only [List.singleton_append, ofChars, ofChars_cons_of_not_glued loose]
      refine cons_of_not_glued (fun q hq => wellFormed_of_mem_ofChars hq) fun p hp => ?_
      exact loose _ (first_of_mem_head? hp)
    | cons x xs =>
      have rest : Apart (x :: xs) ys := by
        intro d hd
        exact apart d (by simpa using hd)
      have whole : ofChars (c :: (x :: xs ++ ys)) = cons c (ofChars (x :: xs ++ ys)) := by
        refine ofChars.eq_3 c _ ?_
        rintro ds rfl h
        cases h
        exact single xs rfl rfl
      rw [List.cons_append, whole, ih rest,
        cons_append_of_ne_nil c (ofChars_ne_nil (List.cons_ne_nil x xs))]

/-- Characters of numerals are one piece. -/
theorem ofChars_number {c : Char} {cs : List Char} (numeric : ∀ d ∈ c :: cs, isNumeric d = true) :
    ofChars (c :: cs) = [number c cs] := by
  induction cs generalizing c with
  | nil =>
    have := numeric c List.mem_cons_self
    simp [ofChars, cons, this]
  | cons d cs ih =>
    have head := numeric c List.mem_cons_self
    have tail := ih fun x hx => numeric x (List.mem_cons_of_mem c hx)
    have lone : c ≠ '*' := by rintro rfl; exact absurd head (by decide)
    rw [ofChars.eq_3 c _ (fun _ h _ => lone h), tail]
    simp [cons, head]

/-- Letters are one piece. -/
theorem ofChars_word {c : Char} {cs : List Char}
    (letters : ∀ d ∈ c :: cs, isAlphabetic d = true) : ofChars (c :: cs) = [word c cs] := by
  induction cs generalizing c with
  | nil =>
    have head := letters c List.mem_cons_self
    simp [ofChars, cons, head, isNumeric_of_isAlphabetic head]
  | cons d cs ih =>
    have head := letters c List.mem_cons_self
    have tail := ih fun x hx => letters x (List.mem_cons_of_mem c hx)
    have lone : c ≠ '*' := by rintro rfl; exact absurd head (by decide)
    rw [ofChars.eq_3 c _ (fun _ h _ => lone h), tail]
    simp [cons, head, isNumeric_of_isAlphabetic head]

end Piece

end Univariate
