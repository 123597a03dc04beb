import Univariate.Proofs.Grammar
import Univariate.Proofs.Steps

/-!
# Parsing decides the grammar

What waits while tokens are read from left to right is a sentence that is cut off: an operator has
its left operand, a group its opening parenthesis. Completing an operand keeps that, so an accepted
list of tokens is a sentence. In the other direction a sentence in the middle of a list is read as
one operand, if there is room for its nesting, and as too deep otherwise.
-/
namespace Univariate

variable {α : Type}

namespace Parser

/-- The binding of the innermost thing that waits in a group. The operand on its right is of the
levels above. -/
def threshold : List (Pending α) → Nat
  | [] => 0
  | p :: _ => p.binding

@[simp] theorem threshold_nil : threshold ([] : List (Pending α)) = 0 := rfl

@[simp] theorem threshold_cons (p : Pending α) (ps : List (Pending α)) :
    threshold (p :: ps) = p.binding := rfl

theorem threshold_lt_three (ps : List (Pending α)) : threshold ps < 3 := by
  cases ps with
  | nil => simp
  | cons p ps =>
    cases p with
    | minus => simp [Pending.binding, minusBinding]
    | operator l op =>
      have := op.rightBinding_le_two
      simp only [threshold_cons, Pending.binding]
      omega

@[simp] theorem depth_nil_nil : depth ([] : List (Pending α)) [] = 0 := rfl

@[simp] theorem depth_cons (p : Pending α) (ps : List (Pending α)) (gs : List (Group α)) :
    depth (p :: ps) gs = depth ps gs + 1 := by
  cases gs with
  | nil => rfl
  | cons g gs => simp only [depth, List.length_cons]; omega

@[simp] theorem depth_nil_cons (g : Group α) (gs : List (Group α)) :
    depth [] (g :: gs) = depth g.outer gs + 1 := by
  simp only [depth, List.length_nil]
  omega

theorem hasRoom_eq_true_iff (ps : List (Pending α)) (gs : List (Group α)) :
    hasRoom ps gs = true ↔ depth ps gs + 1 < maxDepth := by simp [hasRoom]

theorem depth_cons_lt {ps : List (Pending α)} {gs : List (Group α)} (room : hasRoom ps gs = true)
    (p : Pending α) : depth (p :: ps) gs < maxDepth := by
  rw [depth_cons]
  exact (hasRoom_eq_true_iff ps gs).mp room

theorem depth_nil_cons_lt {g : Group α} {gs : List (Group α)} (room : hasRoom g.outer gs = true) :
    depth [] (g :: gs) < maxDepth := by
  rw [depth_nil_cons]
  exact (hasRoom_eq_true_iff g.outer gs).mp room

theorem reduce_of_threshold_lt {b : Nat} {ps : List (Pending α)} (h : threshold ps < b)
    (e : Expr α) : reduce b ps e = (ps, e) := by
  cases ps with
  | nil => rfl
  | cons p ps =>
    have : ¬ b ≤ p.binding := by simpa using h
    simp [reduce, this]

/-- What is left binds less than the operator to come. -/
theorem threshold_reduce {b : Nat} (h : 0 < b) (ps : List (Pending α)) (e : Expr α) :
    threshold (reduce b ps e).1 < b := by
  fun_induction reduce b ps e with
  | case1 => exact h
  | case2 p ps e tight ih => exact ih
  | case3 p ps e loose => simpa using loose

theorem reduce_zero (ps : List (Pending α)) (e : Expr α) :
    reduce 0 ps e = ([], reduceAll ps e) := by
  induction ps generalizing e with
  | nil => rfl
  | cons p ps ih => simpa [reduce, reduceAll] using ih (p.complete e)

/-- `Waits pending groups tokens` describes the tokens read before an operand: each thing that
waits with what stands before its missing operand. -/
inductive Waits : List (Pending α) → List (Group α) → List (Token α) → Prop where
  | start : Waits [] [] []
  | minus {ps : List (Pending α)} {gs : List (Group α)} {ts : List (Token α)} :
      Waits ps gs ts → Waits (.minus :: ps) gs (ts ++ [.op .sub])
  | operator (op : Op) {ps : List (Pending α)} {gs : List (Group α)} {ts us : List (Token α)}
      {l : Expr α} {n : Nat} :
      Waits ps gs ts → threshold ps < op.binding → Sentence op.left us l n →
      depth ps gs + n < maxDepth → Waits (.operator l op :: ps) gs (ts ++ us ++ [.op op])
  | group (i : Nat) {ps : List (Pending α)} {gs : List (Group α)} {ts : List (Token α)} :
      Waits ps gs ts → Waits [] (⟨none, i, ps⟩ :: gs) (ts ++ [.opening])
  | call (f : Func) (i : Nat) {ps : List (Pending α)} {gs : List (Group α)}
      {ts : List (Token α)} :
      Waits ps gs ts → Waits [] (⟨some f, i, ps⟩ :: gs) (ts ++ [.func f, .opening])

/-- `Operand b pending groups e tokens` describes the tokens read after an operand `e`, which is
taken apart by no operator that binds less than `b`. -/
inductive Operand (b : Nat) : List (Pending α) → List (Group α) → Expr α → List (Token α) →
    Prop where
  | intro {level : Level} {ps : List (Pending α)} {gs : List (Group α)} {ts us : List (Token α)}
      {e : Expr α} {n : Nat} :
      Waits ps gs ts → Sentence level us e n → b ≤ level.min → threshold ps < level.min →
      depth ps gs + n < maxDepth → Operand b ps gs e (ts ++ us)

namespace Operand

variable {b : Nat} {ps : List (Pending α)} {gs : List (Group α)} {e : Expr α}
  {ts : List (Token α)}

theorem ofPrimary {us : List (Token α)} {n : Nat} (waits : Waits ps gs ts)
    (sentence : Sentence .primary us e n) (room : depth ps gs + n < maxDepth) :
    Operand Level.primary.min ps gs e (ts ++ us) := by
  have := threshold_lt_three ps
  exact .intro waits sentence (Nat.le_refl _) (by simp only [Level.min]; omega) room

theorem weaken {c : Nat} (h : Operand b ps gs e ts) (le : c ≤ b) : Operand c ps gs e ts := by
  obtain ⟨waits, sentence, strong, fits, room⟩ := h
  exact .intro waits sentence (by omega) fits room

/-- Completing the innermost thing that waits. -/
theorem complete {p : Pending α} (h : Operand b (p :: ps) gs e ts) (tight : b ≤ p.binding) :
    Operand b ps gs (p.complete e) ts := by
  obtain ⟨waits, sentence, strong, fits, room⟩ := h
  rw [depth_cons] at room
  cases waits with
  | minus outer =>
    have factor : Sentence .factor _ e _ := sentence.lift fits
    have := threshold_lt_three ps
    rw [List.append_assoc]
    exact .intro outer factor.minus (Nat.le_succ_of_le tight) this (by omega)
  | operator op outer loose left leftRoom =>
    have right : Sentence op.right _ e _ := sentence.lift (by rw [op.min_right]; exact fits)
    have binding := op.min_level
    have : op.rightBinding ≤ op.binding := by cases op <;> decide
    simp only [Pending.binding] at tight
    rw [List.append_assoc, List.append_assoc]
    exact .intro outer (left.bin op right) (by omega) (by omega) (by omega)

/-- Completing all that binds at least as tightly as an operator. -/
theorem reduce (h : Operand b ps gs e ts) :
    Operand b (reduce b ps e).1 gs (reduce b ps e).2 ts := by
  fun_induction Parser.reduce b ps e with
  | case1 => exact h
  | case2 p ps e tight ih => exact ih (h.complete tight)
  | case3 => exact h

theorem reduceAll (h : Operand b ps gs e ts) : Operand 0 [] gs (reduceAll ps e) ts := by
  simpa only [reduce_zero] using (h.weaken (Nat.zero_le b)).reduce

/-- The left operand of an operator is complete. A power completes nothing, because no operator
that waits binds as tightly. -/
theorem leftOperand (h : Operand Level.primary.min ps gs e ts) (op : Op) :
    Operand op.leftMin (Parser.reduce op.binding ps e).1 gs
      (Parser.reduce op.binding ps e).2 ts := by
  cases op with
  | add | sub | mul | div => exact (h.weaken (by decide)).reduce
  | pow =>
    have idle : Parser.reduce Op.pow.binding ps e = (ps, e) :=
      reduce_of_threshold_lt (threshold_lt_three ps) e
    rw [idle]
    exact h

theorem operator {op : Op} (h : Operand op.leftMin ps gs e ts)
    (loose : threshold ps < op.binding) : Waits (.operator e op :: ps) gs (ts ++ [.op op]) := by
  obtain ⟨waits, sentence, strong, fits, room⟩ := h
  exact waits.operator op loose (sentence.lift (by rw [op.min_left]; exact strong)) room

/-- A closed group is a primary of the expression around it. -/
theorem close {g : Group α} (h : Operand 0 [] (g :: gs) e ts) :
    Operand Level.primary.min g.outer gs (g.complete e) (ts ++ [.closing]) := by
  obtain ⟨waits, sentence, strong, fits, room⟩ := h
  have inner : Sentence .expr _ e _ := sentence.lift fits
  rw [depth_nil_cons] at room
  cases waits with
  | group i outer =>
    dsimp only at room
    simpa [Group.complete] using ofPrimary outer inner.group (by omega)
  | call f i outer =>
    dsimp only at room
    simpa [Group.complete] using ofPrimary outer (inner.call f) (by omega)

theorem finish (h : Operand 0 [] [] e ts) : ∃ n, n < maxDepth ∧ Sentence .expr ts e n := by
  obtain ⟨waits, sentence, strong, fits, room⟩ := h
  cases waits
  exact ⟨_, by simpa using room, sentence.lift fits⟩

end Operand

/-- What a state tells of the tokens before it. -/
def State.Describes : State α → List (Token α) → Prop
  | before ps gs, ts => Waits ps gs ts ∧ depth ps gs < maxDepth
  | after ps gs e, ts => Operand Level.primary.min ps gs e ts

theorem Step.describes {i : Nat} {s t : State α} {ts us : List (Token α)} (h : Step i s us t)
    (before : s.Describes ts) : t.Describes (ts ++ us) := by
  cases h with
  | num v => exact .ofPrimary before.1 (.num v) before.2
  | var name => exact .ofPrimary before.1 (.var name) before.2
  | minus room => exact ⟨before.1.minus, depth_cons_lt room _⟩
  | group room => exact ⟨before.1.group i, depth_nil_cons_lt room⟩
  | call f room => exact ⟨before.1.call f (i + 1), depth_nil_cons_lt room⟩
  | @operator op ps gs e room =>
    have loose := threshold_reduce (by cases op <;> decide : 0 < op.binding) ps e
    exact ⟨(Operand.leftOperand before op).operator loose, depth_cons_lt room _⟩
  | close => exact (Operand.reduceAll before).close

theorem Reaches.describes {s : State α} {ts : List (Token α)} (h : Reaches ts s) :
    s.Describes ts := by
  induction h with
  | start => exact ⟨.start, by simp [maxDepth]⟩
  | step _ step earlier => exact step.describes earlier

/-- The greatest binding of an operator to the right of a sentence that leaves it in one piece. -/
def reach : Level → Nat
  | .expr => 1
  | .term | .factor => 2
  | .primary => 3

theorem reach_level (op : Op) : reach op.level = op.rightBinding := by cases op <;> rfl

theorem reach_level_le_right (op : Op) : reach op.level ≤ reach op.right := by
  cases op <;> decide

theorem binding_le_reach_left (op : Op) : op.binding ≤ reach op.left := by cases op <;> decide

theorem threshold_lt_left {op : Op} {ps : List (Pending α)} (fits : threshold ps < op.level.min) :
    threshold ps < op.left.min := by
  have := op.binding_le_leftMin
  rw [op.min_level] at fits
  rw [op.min_left]
  omega

/-- An operator completes the whole of its left operand and nothing before it. -/
theorem reduce_left {op : Op} {ps qs : List (Pending α)} {e f : Expr α}
    (same : ∀ b, b ≤ reach op.left → reduce b qs f = reduce b ps e)
    (fits : threshold ps < op.level.min) : reduce op.binding qs f = (ps, e) := by
  rw [same _ (binding_le_reach_left op)]
  exact reduce_of_threshold_lt (by rw [← op.min_level]; exact fits) e

/-- An operator after an operand, once what it completes is known. -/
theorem afterOperand_op {op : Op} {ps qs : List (Pending α)} {e f : Expr α}
    (h : reduce op.binding qs f = (ps, e)) (i : Nat) (gs : List (Group α))
    (ts : List (Token α)) :
    afterOperand i qs gs f (.op op :: ts) =
      if hasRoom ps gs then beforeOperand (i + 1) (.operator e op :: ps) gs ts
      else .error (.unexpected i .tooDeep) := by
  simp [afterOperand, h]

theorem afterOperand_closing {qs : List (Pending α)} {e f : Expr α}
    (h : reduce 0 qs f = ([], e)) (i : Nat) (g : Group α) (gs : List (Group α))
    (ts : List (Token α)) :
    afterOperand i qs (g :: gs) f (.closing :: ts) =
      afterOperand (i + 1) g.outer gs (g.complete e) ts := by
  have all : reduceAll qs f = e := by simpa [reduce_zero] using h
  rw [afterOperand, all]

/-- With room for its nesting a sentence is read as one operand. What it leaves waiting of its own
is completed by every operator that may follow, so up to its reach the state is as if the whole
tree had been read at once. -/
theorem beforeOperand_sentence {level : Level} {ts : List (Token α)} {e : Expr α} {n : Nat}
    (sentence : Sentence level ts e n) {ps : List (Pending α)} {gs : List (Group α)}
    (fits : threshold ps < level.min) (room : depth ps gs + n < maxDepth) :
    ∃ qs f, (∀ b, b ≤ reach level → reduce b qs f = reduce b ps e) ∧
      ∀ i rest, beforeOperand i ps gs (ts ++ rest) =
        afterOperand (i + ts.length) qs gs f rest := by
  induction sentence generalizing ps gs with
  | num v => exact ⟨ps, .num v, fun _ _ => rfl, fun i rest => by simp [beforeOperand]⟩
  | var name => exact ⟨ps, .var name, fun _ _ => rfl, fun i rest => by simp [beforeOperand]⟩
  | @group ts e n _ ih =>
    refine ⟨ps, e, fun _ _ => rfl, fun i rest => ?_⟩
    obtain ⟨qs, f, same, run⟩ := @ih [] (⟨none, i, ps⟩ :: gs) Nat.zero_lt_one
      (by rw [depth_nil_cons]; dsimp only; omega)
    have free := (hasRoom_eq_true_iff ps gs).mpr (by omega)
    have done := afterOperand_closing (same 0 (by decide)) (i + 1 + ts.length) ⟨none, i, ps⟩ gs rest
    simp only [List.cons_append, List.append_assoc, beforeOperand, free, ↓reduceIte, run,
      List.nil_append, done, Group.complete, List.length_cons, List.length_append, List.length_nil]
    congr 1; omega
  | @call f ts e n _ ih =>
    refine ⟨ps, .call f e, fun _ _ => rfl, fun i rest => ?_⟩
    obtain ⟨qs, a, same, run⟩ := @ih [] (⟨some f, i + 1, ps⟩ :: gs) Nat.zero_lt_one
      (by rw [depth_nil_cons]; dsimp only; omega)
    have free := (hasRoom_eq_true_iff ps gs).mpr (by omega)
    have done := afterOperand_closing (same 0 (by decide)) (i + 2 + ts.length)
      ⟨some f, i + 1, ps⟩ gs rest
    simp only [List.cons_append, List.append_assoc, beforeOperand, free, ↓reduceIte, run,
      List.nil_append, done, Group.complete, List.length_cons, List.length_append, List.length_nil]
    congr 1; omega
  | @minus ts e n _ ih =>
    obtain ⟨qs, f, same, run⟩ := @ih (.minus :: ps) gs (Nat.lt_succ_self _)
      (by rw [depth_cons]; omega)
    refine ⟨qs, f, fun b le => ?_, fun i rest => ?_⟩
    · have tight : b ≤ minusBinding := le
      rw [same b le]
      simp [reduce, Pending.binding, Pending.complete, tight]
    · have free := (hasRoom_eq_true_iff ps gs).mpr (by omega)
      simp only [List.cons_append, beforeOperand, free, ↓reduceIte, run, List.length_cons]
      congr 1; omega
  | @bin op ts us l r m n _ _ ihLeft ihRight =>
    obtain ⟨qs, f, same, run⟩ := @ihLeft ps gs (threshold_lt_left fits) (by omega)
    have left := reduce_left same fits
    obtain ⟨qs', f', same', run'⟩ := @ihRight (.operator l op :: ps) gs
      (by rw [op.min_right]; exact Nat.lt_succ_self _) (by rw [depth_cons]; omega)
    refine ⟨qs', f', fun b le => ?_, fun i rest => ?_⟩
    · have tight : b ≤ op.rightBinding := by rw [← reach_level]; exact le
      rw [same' b (Nat.le_trans le (reach_level_le_right op))]
      simp [reduce, Pending.binding, Pending.complete, tight]
    · have free := (hasRoom_eq_true_iff ps gs).mpr (by omega)
      simp only [List.append_assoc, List.cons_append, run, afterOperand_op left, free, ↓reduceIte,
        run', List.length_append, List.length_cons]
      congr 1; omega
  | factor _ ih =>
    obtain ⟨qs, f, same, run⟩ := ih (Nat.lt_succ_of_lt fits) room
    exact ⟨qs, f, fun b le => same b (Nat.le_succ_of_le le), run⟩
  | term _ ih =>
    obtain ⟨qs, f, same, run⟩ := ih (Nat.lt_succ_of_lt fits) room
    exact ⟨qs, f, fun b le => same b le, run⟩
  | expr _ ih =>
    obtain ⟨qs, f, same, run⟩ := ih (Nat.lt_succ_of_lt fits) room
    exact ⟨qs, f, fun b le => same b (Nat.le_succ_of_le le), run⟩

/-- Without room for its nesting a sentence is too deep, wherever it stands. -/
theorem beforeOperand_tooDeep {level : Level} {ts : List (Token α)} {e : Expr α} {n : Nat}
    (sentence : Sentence level ts e n) {ps : List (Pending α)} {gs : List (Group α)}
    (fits : threshold ps < level.min) (free : depth ps gs < maxDepth)
    (deep : maxDepth ≤ depth ps gs + n) (i : Nat) (rest : List (Token α)) :
    ∃ k, beforeOperand i ps gs (ts ++ rest) = .error (.unexpected k .tooDeep) := by
  induction sentence generalizing ps gs i rest with
  | num v | var name => omega
  | @group ts e n _ ih =>
    cases room : hasRoom ps gs with
    | false => exact ⟨i, by simp [beforeOperand, room]⟩
    | true =>
      obtain ⟨k, h⟩ := @ih [] (⟨none, i, ps⟩ :: gs) Nat.zero_lt_one
        (depth_nil_cons_lt room) (by rw [depth_nil_cons]; dsimp only; omega)
        (i + 1) (.closing :: rest)
      exact ⟨k, by simpa [beforeOperand, room] using h⟩
  | @call f ts e n _ ih =>
    cases room : hasRoom ps gs with
    | false => exact ⟨i + 1, by simp [beforeOperand, room]⟩
    | true =>
      obtain ⟨k, h⟩ := @ih [] (⟨some f, i + 1, ps⟩ :: gs) Nat.zero_lt_one
        (depth_nil_cons_lt room) (by rw [depth_nil_cons]; dsimp only; omega)
        (i + 2) (.closing :: rest)
      exact ⟨k, by simpa [beforeOperand, room] using h⟩
  | @minus ts e n _ ih =>
    cases room : hasRoom ps gs with
    | false => exact ⟨i, by simp [beforeOperand, room]⟩
    | true =>
      obtain ⟨k, h⟩ := @ih (.minus :: ps) gs (Nat.lt_succ_self _)
        (depth_cons_lt room _) (by rw [depth_cons]; omega) (i + 1) rest
      exact ⟨k, by simpa [beforeOperand, room] using h⟩
  | @bin op ts us l r m n leftSentence _ ihLeft ihRight =>
    rw [List.append_assoc]
    by_cases leftDeep : maxDepth ≤ depth ps gs + m
    · exact ihLeft (threshold_lt_left fits) free leftDeep i _
    · -- the left operand is read, so it is the right one that does not fit
      obtain ⟨qs, f, same, run⟩ := beforeOperand_sentence leftSentence
        (threshold_lt_left fits) (Nat.lt_of_not_le leftDeep)
      rw [run, List.cons_append, afterOperand_op (reduce_left same fits)]
      cases room : hasRoom ps gs with
      | false => exact ⟨_, rfl⟩
      | true =>
        exact @ihRight (.operator l op :: ps) gs (by rw [op.min_right]; exact Nat.lt_succ_self _)
          (depth_cons_lt room _) (by rw [depth_cons]; omega) _ rest
  | factor _ ih | term _ ih | expr _ ih => exact ih (Nat.lt_succ_of_lt fits) free deep i rest

end Parser

namespace Expr

/-- A sentence is accepted with its tree when its nesting is allowed. -/
theorem ofTokens_sentence {ts : List (Token α)} {e : Expr α} {n : Nat}
    (sentence : Sentence .expr ts e n) (shallow : n < maxDepth) : ofTokens ts = .ok e := by
  obtain ⟨qs, f, same, run⟩ := @Parser.beforeOperand_sentence _ _ _ _ _ sentence [] []
    Nat.zero_lt_one (by simpa using shallow)
  have all : Parser.reduceAll qs f = e := by
    simpa [Parser.reduce_zero, Parser.reduceAll] using same 0 (Nat.zero_le _)
  have h := run 0 []
  rw [List.append_nil] at h
  rw [ofTokens, h, Parser.afterOperand, all]

theorem ofTokens_tooDeep {ts : List (Token α)} {e : Expr α} {n : Nat}
    (sentence : Sentence .expr ts e n) (deep : maxDepth ≤ n) :
    ∃ k, ofTokens ts = .error (.unexpected k .tooDeep) := by
  obtain ⟨k, h⟩ := @Parser.beforeOperand_tooDeep _ _ _ _ _ sentence [] [] Nat.zero_lt_one
    (by simp [maxDepth]) (by simpa using deep) 0 []
  rw [List.append_nil] at h
  exact ⟨k, h⟩

theorem sentence_of_ofTokens {ts : List (Token α)} {e : Expr α} (h : ofTokens ts = .ok e) :
    ∃ n, n < maxDepth ∧ Sentence .expr ts e n := by
  obtain ⟨read, rest, s, rfl, reached, stops⟩ := Parser.exists_stops ts
  rw [h] at stops
  cases stops with
  | accepted ps last =>
    rw [List.append_nil]
    exact (Parser.Operand.reduceAll reached.describes).finish

/-- The tokens that are accepted with a tree are the sentences with that tree and an allowed
nesting, and such a sentence has no second tree, not even at another nesting. -/
theorem ofTokens_eq_ok_iff (ts : List (Token α)) (e : Expr α) :
    (ofTokens ts = .ok e ↔ ∃ n, n < maxDepth ∧ Sentence .expr ts e n) ∧
      (ofTokens ts = .ok e → ∀ e' n, Sentence .expr ts e' n → e' = e) := by
  refine ⟨⟨sentence_of_ofTokens, ?_⟩, ?_⟩
  · rintro ⟨n, shallow, sentence⟩
    exact ofTokens_sentence sentence shallow
  · intro accepted e' n sentence
    by_cases shallow : n < maxDepth
    · rw [ofTokens_sentence sentence shallow] at accepted
      exact Except.ok.inj accepted
    · obtain ⟨k, rejected⟩ := ofTokens_tooDeep sentence (Nat.le_of_not_lt shallow)
      rw [rejected] at accepted
      cases accepted

theorem tokens_of_parse [Numeral α] {v input : String} {e : Expr α}
    (h : parse v input = .ok e) :
    ∃ ts, Lexer.tokenize v input = .ok ts ∧ ofTokens ts = .ok e := by
  rw [parse] at h
  cases read : Lexer.tokenize (α := α) v input with
  | error m => rw [read] at h; cases h
  | ok ts =>
    simp only [read, bind, Except.bind] at h
    split at h
    · rename_i parsed
      cases h
      exact ⟨ts, rfl, parsed⟩
    · cases h

/-- A text is refused while its tokens are read, or its tokens are. -/
theorem parse_error_cases [Numeral α] {v input : String} {error : ParseError}
    (h : parse (α := α) v input = .error error) :
    Lexer.tokenize (α := α) v input = .error error ∨
      ∃ (ts : List (Token α)) (fault : Fault), Lexer.tokenize v input = .ok ts ∧
        ofTokens ts = .error fault ∧ error = fault.locate ts := by
  rw [parse] at h
  cases read : Lexer.tokenize (α := α) v input with
  | error cause =>
    rw [read] at h
    cases h
    exact .inl rfl
  | ok ts =>
    simp only [read, bind, Except.bind] at h
    split at h
    · cases h
    · rename_i fault parsed
      cases h
      exact .inr ⟨ts, fault, rfl, parsed, rfl⟩

end Expr

end Univariate
