import Univariate.Grader
import Univariate.Proofs.Neighbours
import Univariate.Proofs.Parsing
import Univariate.Proofs.UniqueReading

/-!
# What comparing answers tells

Answers are compared without their product signs. Most of these signs say nothing, because the
lexer would imply the product. Two kinds do: between numerals, which run together without it, and
before a minus, which becomes a difference. Answers that agree in these signs and are found to be
the same denote the same tree.
-/
namespace Univariate

open Text

namespace Answer

/-- Whether a product sign between two characters cannot be left out. -/
def isNeeded (before after : Char) : Bool :=
  (Piece.isNumeric before && Piece.isNumeric after) || after == '-'

/-- For each character but the product signs, whether a product sign that is needed follows. -/
def neededSigns : List Char → List Bool
  | c :: '*' :: d :: cs => isNeeded c d :: neededSigns (d :: cs)
  | _ :: cs => false :: neededSigns cs
  | [] => []

/-- The needed product signs of an answer. -/
def signs (answer : String) : List Bool := neededSigns (mergePowers (clean answer).toList)

def weave : List Char → List Bool → List Char
  | c :: cs, needed :: flags => if needed then c :: '*' :: weave cs flags else c :: weave cs flags
  | _, _ => []

/-- The text in which only the needed product signs are left. -/
def restore (cs : List Char) : List Char := weave (cs.filter (· ≠ '*')) (neededSigns cs)

theorem restore_cons {c : Char} {cs : List Char} (char : c ≠ '*') (next : cs.head? ≠ some '*') :
    restore (c :: cs) = c :: restore cs := by
  have flags : neededSigns (c :: cs) = false :: neededSigns cs := by
    refine neededSigns.eq_2 c cs ?_
    rintro d ds rfl
    exact next rfl
  simp [restore, flags, char, weave]

theorem restore_star {c d : Char} {cs : List Char} (before : c ≠ '*') (after : d ≠ '*') :
    restore (c :: '*' :: d :: cs) =
      if isNeeded c d then c :: '*' :: restore (d :: cs) else c :: restore (d :: cs) := by
  simp [restore, neededSigns, before, after, weave]

theorem restore_append {xs ys : List Char} (chars : '*' ∉ xs) (next : ys.head? ≠ some '*') :
    restore (xs ++ ys) = xs ++ restore ys := by
  induction xs with
  | nil => rfl
  | cons x xs ih =>
    obtain ⟨first, others⟩ := not_or.mp (List.mem_cons.not.mp chars)
    rw [List.cons_append, restore_cons (Ne.symm first), ih others]
    · rfl
    · cases xs with
      | nil => exact next
      | cons y ys =>
        intro star
        obtain rfl : y = '*' := by simpa using star
        exact others List.mem_cons_self

/-- The factor marks of a normal form come off again. -/
theorem filter_markProducts {cs : List Char} (unmarked : '·' ∉ cs) :
    (markProducts cs).filter (· ≠ '·') = cs := by
  fun_induction markProducts cs with
  | case1 c d cs marked ih =>
    obtain ⟨first, others⟩ := not_or.mp (List.mem_cons.not.mp unmarked)
    simpa [Ne.symm first] using ih others
  | case2 c d cs _ ih =>
    obtain ⟨first, others⟩ := not_or.mp (List.mem_cons.not.mp unmarked)
    simpa [Ne.symm first] using ih others
  | case3 cs _ =>
    rw [List.filter_eq_self]
    intro c hc
    simp only [ne_eq, decide_not, Bool.not_eq_true', decide_eq_false_iff_not]
    rintro rfl
    exact unmarked hc

end Answer

open Token Lexer Answer

namespace Lexeme

variable {α : Type} [Numeral α] {v : String} {l m r : Lexeme v} {ls ms ss : List (Lexeme v)}

def isMinus : Lexeme v → Bool
  | op .sub => true
  | _ => false

/-- Whether a product sign between two lexemes cannot be left out. -/
def needs (l r : Lexeme v) : Bool := (l.isNumber && r.isNumber) || r.isMinus

/-- The second list is the first one without the product signs that can be left out. -/
inductive Strips (α : Type) [Numeral α] : List (Lexeme v) → List (Lexeme v) → Prop where
  | last {l : Lexeme v} : (l.token (α := α)).endsOperand → Strips α [l] [l]
  | next {l m : Lexeme v} {ls ss : List (Lexeme v)} :
      l ≠ op .mul → m ≠ op .mul → Beside (α := α) l.token m.token →
      Strips α (m :: ls) (m :: ss) → Strips α (l :: m :: ls) (l :: m :: ss)
  | kept {l r : Lexeme v} {ls ss : List (Lexeme v)} :
      Beside (α := α) l.token (.op .mul) → Beside (α := α) (.op .mul) r.token → needs l r = true →
      Strips α (r :: ls) (r :: ss) → Strips α (l :: op .mul :: r :: ls) (l :: op .mul :: r :: ss)
  | dropped {l r : Lexeme v} {ls ss : List (Lexeme v)} :
      Beside (α := α) l.token (.op .mul) → Beside (α := α) (.op .mul) r.token → needs l r = false →
      Strips α (r :: ls) (r :: ss) → Strips α (l :: op .mul :: r :: ls) (l :: r :: ss)

/-- What stands around a written product. -/
theorem ne_mul_of_beside_mul (h : Beside (α := α) l.token (.op .mul)) : l ≠ op .mul := by
  rintro rfl
  simp [Beside, canFollow, isProduct, token, startsOperand] at h

theorem ne_mul_of_mul_beside (h : Beside (α := α) (.op .mul) r.token) : r ≠ op .mul := by
  rintro rfl
  simp [Beside, canFollow, isProduct, token, startsOperand] at h

/-- Text that is read can be rid of the product signs that say nothing. -/
theorem exists_strips (l : Lexeme v) (ls : List (Lexeme v)) (first : l ≠ op .mul)
    (linked : Linked ((l :: ls).map (token (α := α)))) : ∃ ss, Strips α (l :: ls) (l :: ss) := by
  match ls with
  | [] => exact ⟨[], .last (linked.ends _ rfl)⟩
  | m :: ls =>
    by_cases product : m = op .mul
    · subst product
      match ls with
      | [] => cases linked.ends _ rfl
      | r :: ls =>
        have left : Beside (α := α) l.token (.op .mul) := linked.beside
        have right : Beside (α := α) (.op .mul) r.token := linked.tail.beside
        obtain ⟨ss, rest⟩ := exists_strips r ls (ne_mul_of_mul_beside right) linked.tail.tail
        cases needed : needs l r with
        | true => exact ⟨_, .kept left right needed rest⟩
        | false => exact ⟨_, .dropped left right needed rest⟩
    · obtain ⟨ss, rest⟩ := exists_strips m ls product linked.tail
      exact ⟨_, .next first product linked.beside rest⟩

/-- What stands on both sides of a product sign that says nothing has an implied product. -/
theorem isProduct_of_not_needs (left : Beside (α := α) l.token (.op .mul))
    (right : Beside (α := α) (.op .mul) r.token) (needed : needs l r = false) :
    isProduct (α := α) l.token r.token = true := by
  refine isProduct_of_beside left right ?_ ?_
  · rintro ⟨x, y, hl, hr⟩
    cases l <;> cases hl
    cases r <;> cases hr
    cases needed
  · intro hr
    cases r <;> cases hr
    simp [needs, isMinus] at needed

/-- Stripped lexemes are read as the same tokens. -/
theorem insertProducts_strips (h : Strips α ls ss) :
    insertProducts (ss.map (token (α := α))) = insertProducts (ls.map token) := by
  induction h with
  | last _ => rfl
  | next _ _ _ _ ih =>
    simp only [List.map_cons, insertProducts] at ih ⊢
    rw [ih]
  | kept _ _ _ _ ih =>
    simp only [List.map_cons, token_op, insertProducts, isProduct_op_left,
      isProduct_op_right] at ih ⊢
    rw [ih]
  | dropped left right needed _ ih =>
    simp only [List.map_cons, token_op, insertProducts, isProduct_op_left, isProduct_op_right,
      isProduct_of_not_needs left right needed] at ih ⊢
    rw [ih]
    rfl

theorem stops_of_beside (h : Beside (α := α) l.token m.token) : l.Stops (spell (m :: ls)) := by
  cases l with
  | number digits d reads =>
    intro x hx
    rw [spell_cons, List.head?_append_of_ne_nil _ m.chars_ne_nil] at hx
    rw [isNumeric_of_mem (List.mem_of_head? hx)]
    cases m with
    | number _ _ _ => exact absurd h Beside.not_num
    | var _ | func _ | op _ | opening | closing => rfl
  | func f =>
    have next := h.opening_of_func
    cases m <;> cases next
    rfl
  | var _ | op _ | opening | closing => trivial

/-- Stripped lexemes can be recovered from their text. -/
theorem tidy_strips (h : Strips α ls ss) : Tidy ss := by
  induction h with
  | @last l ends =>
    refine ⟨?_, trivial⟩
    cases l with
    | func f => cases ends
    | number _ _ _ => simp [Stops]
    | var _ | op _ | opening | closing => trivial
  | next _ _ beside _ ih => exact ⟨stops_of_beside beside, ih⟩
  | kept left _ _ _ ih => exact ⟨stops_of_beside (m := op .mul) left, trivial, ih⟩
  | dropped left right needed _ ih =>
    exact ⟨stops_of_beside (.inr (isProduct_of_not_needs left right needed)), ih⟩

theorem star_not_mem (h : l ≠ op .mul) : '*' ∉ l.chars := by
  intro star
  obtain ⟨_, reads⟩ := sign_of_mem star (by decide) (isAlphabetic_eq_false_of_lt (by simp))
  have product : Token.op .mul = l.token := List.singleton_inj.mp (Except.ok.inj (@reads Float _))
  cases l <;> cases product
  exact h rfl

theorem head?_spell_ne_star (h : l ≠ op .mul) : (spell (l :: ls)).head? ≠ some '*' := by
  rw [spell_cons, List.head?_append_of_ne_nil _ l.chars_ne_nil]
  intro star
  exact star_not_mem h (List.mem_of_head? star)

theorem isMinus_of_head {d : Char} (h : l.chars.head? = some d) : (d == '-') = l.isMinus := by
  by_cases minus : d = '-'
  · subst minus
    obtain ⟨_, reads⟩ := sign_of_mem (List.mem_of_head? h) (by decide)
      (isAlphabetic_eq_false_of_lt (by simp))
    have sign : Token.op .sub = l.token := List.singleton_inj.mp (Except.ok.inj (@reads Float _))
    cases l <;> cases sign
    rfl
  · have other : l ≠ op .sub := by
      rintro rfl
      exact minus (Option.some.inj h).symm
    rw [beq_false_of_ne minus]
    cases l with
    | op o => cases o <;> first | rfl | exact absurd rfl other
    | number _ _ _ | var _ | func _ | opening | closing => rfl

/-- A product sign between two lexemes stays or goes with them. -/
theorem restore_product (left : l ≠ op .mul) (right : r ≠ op .mul) :
    restore (spell (l :: op .mul :: r :: ls)) =
      if needs l r then l.chars ++ '*' :: restore (spell (r :: ls))
      else l.chars ++ restore (spell (r :: ls)) := by
  obtain ⟨xs, c, last⟩ := (List.eq_nil_or_concat l.chars).resolve_left l.chars_ne_nil
  obtain ⟨d, ds, first⟩ := List.exists_cons_of_ne_nil r.chars_ne_nil
  have memLeft : c ∈ l.chars := by rw [last]; simp
  have memRight : d ∈ r.chars := by rw [first]; exact List.mem_cons_self
  have before : c ≠ '*' := by rintro rfl; exact star_not_mem left memLeft
  have after : d ≠ '*' := by rintro rfl; exact star_not_mem right memRight
  have inner : '*' ∉ xs := fun h => star_not_mem left (by rw [last]; simp [h])
  have same : isNeeded c d = needs l r := by
    rw [isNeeded, needs, isNumeric_of_mem memLeft, isNumeric_of_mem memRight,
      isMinus_of_head (by rw [first]; rfl)]
  have whole : spell (l :: op .mul :: r :: ls) = xs ++ c :: '*' :: d :: (ds ++ spell ls) := by
    have product : (op .mul : Lexeme v).chars = ['*'] := rfl
    simp [product, last, first]
  have rest : spell (r :: ls) = d :: (ds ++ spell ls) := by simp [first]
  rw [whole, rest, restore_append inner (by simpa using before), restore_star before after, same,
    last]
  split <;> simp

/-- The text of stripped lexemes is the text in which only the needed signs are left. -/
theorem spell_strips (h : Strips α ls ss) : spell ss = restore (spell ls) := by
  induction h with
  | @last l ends =>
    have first : l ≠ op .mul := by
      rintro rfl
      cases ends
    rw [spell_cons, restore_append (star_not_mem first) (by simp)]
    rfl
  | @next l m ls ss first second _ _ ih =>
    rw [spell_cons l (m :: ls), restore_append (star_not_mem first) (head?_spell_ne_star second),
      ← ih, spell_cons]
  | kept left right needed _ ih =>
    rw [restore_product (ne_mul_of_beside_mul left) (ne_mul_of_mul_beside right), if_pos needed,
      ← ih]
    rfl
  | dropped left right needed _ ih =>
    rw [restore_product (ne_mul_of_beside_mul left) (ne_mul_of_mul_beside right),
      if_neg (by simp [needed]), ← ih]
    rfl

/-- A sign that is read as no token is in no lexeme. -/
theorem not_mem_spell {c : Char} (noNumber : Piece.isNumeric c = false)
    (noLetter : isAlphabetic c = false)
    (unread : ∀ t, tokens (α := Float) v 0 (.single c) ≠ .ok [t]) : c ∉ spell ls := by
  intro sign
  obtain ⟨l, _, inside⟩ := List.mem_flatMap.mp sign
  exact unread _ (sign_of_mem inside noNumber noLetter).2

theorem mark_not_mem : '·' ∉ spell ls := by
  refine not_mem_spell (by decide) (by decide +kernel) fun t read => ?_
  cases read

end Lexeme

namespace Expr

variable {α : Type} [Numeral α] {v input : String} {e : Expr α}

theorem scan_of_parse (h : parse v input = .ok e) : ∃ ts,
    scan (α := α) (lower v) 0 0 (Piece.ofChars (clean input).toList) = .ok ts ∧
      ofTokens (insertProducts ts) = .ok e := by
  obtain ⟨stream, read, parsed⟩ := tokens_of_parse h
  obtain ⟨ts, scanned, rfl⟩ := scan_of_tokenize read
  exact ⟨ts, scanned, parsed⟩

/-- What is parsed can be recovered from the text in which only the needed signs are left. -/
theorem lexemes_of_parse (h : parse v input = .ok e) : ∃ ls ss : List (Lexeme (lower v)),
    Lexeme.Strips α ls ss ∧ Lexeme.spell ls = mergePowers (clean input).toList ∧
      ofTokens (insertProducts (ls.map (Lexeme.token (α := α)))) = .ok e := by
  obtain ⟨ts, scanned, parsed⟩ := scan_of_parse h
  obtain ⟨ls, rfl, text⟩ := Lexeme.of_scan scanned
  obtain ⟨n, _, sentence⟩ := sentence_of_ofTokens parsed
  obtain ⟨t, head, starts⟩ := sentence.phrase.starts
  rw [head?_insertProducts] at head
  cases ls with
  | nil => cases head
  | cons l ls =>
    have first : l ≠ .op .mul := by
      rintro rfl
      cases head
      cases starts
    have linked := linked_of_insertProducts sentence.phrase
    obtain ⟨ss, strips⟩ := Lexeme.exists_strips l ls first linked
    exact ⟨l :: ls, l :: ss, strips, text, parsed⟩

end Expr

namespace Answer

variable {α : Type} [Numeral α] {v a b : String} {e e' : Expr α}

/-- The normal form still has all characters but the product signs. -/
theorem filter_of_isSame (left : '·' ∉ mergePowers (clean a).toList)
    (right : '·' ∉ mergePowers (clean b).toList) (same : isSame a b = true) :
    (mergePowers (clean a).toList).filter (· ≠ '*') =
      (mergePowers (clean b).toList).filter (· ≠ '*') := by
  have unmarked {cs : List Char} (h : '·' ∉ cs) : '·' ∉ cs.filter (· ≠ '*') :=
    fun mark => h (List.mem_of_mem_filter mark)
  have normal := String.ofList_injective (isSame_iff.mp same)
  rw [← filter_markProducts (unmarked left), ← filter_markProducts (unmarked right)]
  exact congrArg _ normal

theorem eq_of_isSame (left : Expr.parse v a = .ok e) (right : Expr.parse v b = .ok e')
    (needed : signs a = signs b) (same : isSame a b = true) : e = e' := by
  obtain ⟨ls, ss, strips, text, parsed⟩ := Expr.lexemes_of_parse left
  obtain ⟨ls', ss', strips', text', parsed'⟩ := Expr.lexemes_of_parse right
  have chars := filter_of_isSame (text ▸ Lexeme.mark_not_mem) (text' ▸ Lexeme.mark_not_mem) same
  have spelled : Lexeme.spell ss = Lexeme.spell ss' := by
    rw [Lexeme.spell_strips strips, Lexeme.spell_strips strips', text, text', restore, restore,
      chars]
    exact congrArg _ needed
  have tokens := Lexeme.map_token_unique (α := α) (Lexeme.tidy_strips strips)
    (Lexeme.tidy_strips strips') spelled
  rw [← Lexeme.insertProducts_strips strips, tokens, Lexeme.insertProducts_strips strips',
    parsed'] at parsed
  exact (Except.ok.inj parsed).symm

/-- Answers that agree in the needed product signs are the same only if they denote the same tree,
and no grader marks one of them as correct against the other otherwise. -/
theorem isSame_sound (left : Expr.parse v a = .ok e) (right : Expr.parse v b = .ok e')
    (needed : signs a = signs b) : (isSame a b = true → e = e') ∧
      ∀ (g : Grader) (exercise : Exercise) (verdict : Verdict),
        g.check exercise a = .ok verdict → verdict.expected.text = b → verdict.correct = true →
          e = e' := by
  refine ⟨eq_of_isSame left right needed, ?_⟩
  intro g exercise verdict checked expected correct
  rw [Grader.check] at checked
  cases found : g.solution exercise with
  | error cause => rw [found] at checked; cases checked
  | ok solution =>
    rw [found] at checked
    have whole : ⟨isSame a solution.text, solution⟩ = verdict := Except.ok.inj checked
    subst whole
    subst expected
    exact eq_of_isSame left right needed correct

theorem isSame_sound_product : ∃ e e' : Expr Float,
    Expr.parse "x" "2*3x" = .ok e ∧ Expr.parse "x" "2*3*x" = .ok e' ∧
      signs "2*3x" = signs "2*3*x" ∧ isSame "2*3x" "2*3*x" = true ∧ e = e' := by
  have left : Expr.parse "x" "2*3x" =
      .ok (.bin .mul (.bin .mul (.num 2) (.num 3)) (.var "x") : Expr Float) := by decide +kernel
  have right : Expr.parse "x" "2*3*x" =
      .ok (.bin .mul (.bin .mul (.num 2) (.num 3)) (.var "x") : Expr Float) := by decide +kernel
  have needed : signs "2*3x" = signs "2*3*x" := by decide +kernel
  have same : isSame "2*3x" "2*3*x" = true := by decide +kernel
  exact ⟨_, _, left, right, needed, same, (isSame_sound left right needed).1 same⟩

/-- Two answers that are found to be the same, and marked as correct, with different trees. -/
def Confuses (v a b : String) : Prop :=
  ∃ e e' : Expr Float, Expr.parse v a = .ok e ∧ Expr.parse v b = .ok e' ∧
    isSame a b = true ∧ (Grader.offline v).check ⟨"", some b⟩ a = .ok ⟨true, ⟨b, .given⟩⟩ ∧ e ≠ e'

/-- Without the needed signs a product of numerals is a numeral, and the product with a negative
number is a difference. -/
theorem confuses_needed : Confuses "x" "2*3" "23" ∧ Confuses "x" "2*-3" "2-3" := by
  have graded {v a b : String} (same : isSame a b = true) :
      (Grader.offline v).check ⟨"", some b⟩ a = .ok ⟨true, ⟨b, .given⟩⟩ := by
    rw [← same]
    rfl
  constructor
  · have same : isSame "2*3" "23" = true := by decide +kernel
    have left : Expr.parse "x" "2*3" = .ok (.bin .mul (.num 2) (.num 3) : Expr Float) := by
      decide +kernel
    have right : Expr.parse "x" "23" = .ok (.num 23 : Expr Float) := by decide +kernel
    exact ⟨_, _, left, right, same, graded same, by simp⟩
  · have same : isSame "2*-3" "2-3" = true := by decide +kernel
    have left : Expr.parse "x" "2*-3" = .ok (.bin .mul (.num 2) (.neg (.num 3)) : Expr Float) := by
      decide +kernel
    have right : Expr.parse "x" "2-3" = .ok (.bin .sub (.num 2) (.num 3) : Expr Float) := by
      decide +kernel
    exact ⟨_, _, left, right, same, graded same, by simp⟩

end Answer

end Univariate
