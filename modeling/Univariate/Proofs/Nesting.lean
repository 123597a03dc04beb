import Univariate.Number.Double
import Univariate.Proofs.Parsing

/-!
# What the limit on nesting counts

Groups, arguments, minuses and right operands of powers are what the limit is meant for. The right
operands of the other operators are counted as well, because they wait in the same way. Between two
constructs of the first kind there are at most two of the second, a term of a sum and a factor in
it, so the nesting that is counted is at most three times the one that is meant, and two more. Every
sentence that stays below the limit with that is accepted, and the first that does not is refused.
-/
namespace Univariate

variable {α : Type}

namespace Op

/-- The meant nesting of a right operand. -/
def deepen : Op → Nat → Nat
  | pow, n => n + 1
  | _, n => n

/-- The right operands of sums and products around a right operand, itself included. -/
def widen : Op → Nat → Nat
  | pow, k => k
  | _, k => k + 1

theorem deepen_add_widen (op : Op) (n k : Nat) : op.deepen n + op.widen k = n + k + 1 := by
  cases op <;> simp only [deepen, widen] <;> omega

theorem deepen_le (op : Op) (n : Nat) : op.deepen n ≤ n + 1 := by
  cases op <;> simp only [deepen] <;> omega

end Op

/-- `Nested level tokens e n k` derives what `Sentence` does. The meant nesting is `n`, and `k` says
how deep the right operands of sums, differences, products and quotients are in each other. -/
inductive Nested : Level → List (Token α) → Expr α → Nat → Nat → Prop where
  | num (v : α) : Nested .primary [.num v] (.num v) 0 0
  | var (name : String) : Nested .primary [.var name] (.var name) 0 0
  | group {ts : List (Token α)} {e : Expr α} {n k : Nat} :
      Nested .expr ts e n k → Nested .primary (.opening :: ts ++ [.closing]) e (n + 1) k
  | call (f : Func) {ts : List (Token α)} {e : Expr α} {n k : Nat} :
      Nested .expr ts e n k →
      Nested .primary (.func f :: .opening :: ts ++ [.closing]) (.call f e) (n + 1) k
  | minus {ts : List (Token α)} {e : Expr α} {n k : Nat} :
      Nested .factor ts e n k → Nested .factor (.op .sub :: ts) (.neg e) (n + 1) k
  | bin (op : Op) {ts us : List (Token α)} {l r : Expr α} {m n j k : Nat} :
      Nested op.left ts l m j → Nested op.right us r n k →
      Nested op.level (ts ++ .op op :: us) (.bin op l r) (max m (op.deepen n)) (max j (op.widen k))
  | factor {ts : List (Token α)} {e : Expr α} {n k : Nat} :
      Nested .primary ts e n k → Nested .factor ts e n k
  | term {ts : List (Token α)} {e : Expr α} {n k : Nat} :
      Nested .factor ts e n k → Nested .term ts e n k
  | expr {ts : List (Token α)} {e : Expr α} {n k : Nat} :
      Nested .term ts e n k → Nested .expr ts e n k

/-- How many right operands of sums and products a token can be in before it is in anything else. -/
def Level.slack : Level → Nat
  | expr => 2
  | term => 1
  | factor | primary => 0

theorem Level.slack_right (op : Op) (n : Nat) :
    3 * n + op.right.slack + 1 ≤ 3 * op.deepen n + op.level.slack := by
  cases op <;> simp only [Op.deepen, Op.right, Op.level, slack] <;> omega

theorem Level.slack_left (op : Op) : op.left.slack ≤ op.level.slack := by cases op <;> decide

variable {level : Level} {ts : List (Token α)} {e : Expr α} {n k : Nat}

/-- The same derivation has both nestings. -/
theorem Sentence.exists_nested {c : Nat} (sentence : Sentence level ts e c) :
    ∃ n k, Nested level ts e n k := by
  induction sentence with
  | num v => exact ⟨0, 0, .num v⟩
  | var name => exact ⟨0, 0, .var name⟩
  | group _ ih =>
    obtain ⟨n, k, inner⟩ := ih
    exact ⟨n + 1, k, inner.group⟩
  | call f _ ih =>
    obtain ⟨n, k, inner⟩ := ih
    exact ⟨n + 1, k, inner.call f⟩
  | minus _ ih =>
    obtain ⟨n, k, inner⟩ := ih
    exact ⟨n + 1, k, inner.minus⟩
  | bin op _ _ left right =>
    obtain ⟨m, j, left⟩ := left
    obtain ⟨n, k, right⟩ := right
    exact ⟨_, _, left.bin op right⟩
  | factor _ ih =>
    obtain ⟨n, k, inner⟩ := ih
    exact ⟨n, k, inner.factor⟩
  | term _ ih =>
    obtain ⟨n, k, inner⟩ := ih
    exact ⟨n, k, inner.term⟩
  | expr _ ih =>
    obtain ⟨n, k, inner⟩ := ih
    exact ⟨n, k, inner.expr⟩

/-- What is counted lies between the meant nesting and three times that. -/
theorem Nested.exists_sentence (h : Nested level ts e n k) :
    ∃ c, Sentence level ts e c ∧ n ≤ c ∧ c ≤ n + k ∧ c ≤ 3 * n + level.slack := by
  induction h with
  | num v => exact ⟨0, .num v, by omega, by omega, by omega⟩
  | var name => exact ⟨0, .var name, by omega, by omega, by omega⟩
  | group _ ih =>
    obtain ⟨c, inner, low, both, high⟩ := ih
    have : Level.expr.slack = 2 := rfl
    exact ⟨c + 1, inner.group, by omega, by omega, by omega⟩
  | call f _ ih =>
    obtain ⟨c, inner, low, both, high⟩ := ih
    have : Level.expr.slack = 2 := rfl
    exact ⟨c + 1, inner.call f, by omega, by omega, by omega⟩
  | minus _ ih =>
    obtain ⟨c, inner, low, both, high⟩ := ih
    exact ⟨c + 1, inner.minus, by omega, by omega, by omega⟩
  | @bin op _ _ _ _ m n j k _ _ left right =>
    obtain ⟨b, left, lowLeft, bothLeft, highLeft⟩ := left
    obtain ⟨c, right, lowRight, bothRight, highRight⟩ := right
    have sum := op.deepen_add_widen n k
    have deep := op.deepen_le n
    have slackRight := Level.slack_right op n
    have slackLeft := Level.slack_left op
    exact ⟨max b (c + 1), left.bin op right, by omega, by omega, by omega⟩
  | factor _ ih =>
    obtain ⟨c, inner, bounds⟩ := ih
    exact ⟨c, inner.factor, bounds⟩
  | term _ ih =>
    obtain ⟨c, inner, low, both, high⟩ := ih
    exact ⟨c, inner.term, low, both, Nat.le_succ_of_le high⟩
  | expr _ ih =>
    obtain ⟨c, inner, low, both, high⟩ := ih
    exact ⟨c, inner.expr, low, both, Nat.le_succ_of_le high⟩

namespace Expr

/-- A sentence is refused for nothing but its depth. It is accepted when the meant nesting is at
most twenty, whatever operators stand in between, and when it is below the limit together with the
right operands of sums and products. Meant nesting beyond the limit is never accepted. -/
theorem ofTokens_of_nested (h : Nested .expr ts e n k) :
    (ofTokens ts = .ok e ∨ ∃ i, ofTokens ts = .error (.unexpected i .tooDeep)) ∧
      (3 * n + 2 < maxDepth → ofTokens ts = .ok e) ∧
      (n + k < maxDepth → ofTokens ts = .ok e) ∧
      (maxDepth ≤ n → ∃ i, ofTokens ts = .error (.unexpected i .tooDeep)) := by
  obtain ⟨c, sentence, low, both, high⟩ := h.exists_sentence
  have : Level.expr.slack = 2 := rfl
  refine ⟨?_, fun few => ?_, fun few => ?_, fun deep => ?_⟩
  · by_cases shallow : c < maxDepth
    · exact .inl (ofTokens_sentence sentence shallow)
    · exact .inr (ofTokens_tooDeep sentence (Nat.le_of_not_lt shallow))
  · exact ofTokens_sentence sentence (by omega)
  · exact ofTokens_sentence sentence (by omega)
  · exact ofTokens_tooDeep sentence (by omega)

end Expr

/-! ## The deepest sentences -/

/-- `x+x*(x+x*(… x+x …))` with `n` groups -/
def ladder : Nat → List (Token α)
  | 0 => [.var "x", .op .add, .var "x"]
  | n + 1 => [.var "x"] ++ .op .add :: ([.var "x"] ++ .op .mul :: (.opening :: ladder n ++ [.closing]))

def ladderTree : Nat → Expr α
  | 0 => .bin .add (.var "x") (.var "x")
  | n + 1 => .bin .add (.var "x") (.bin .mul (.var "x") (ladderTree n))

theorem nested_ladder (n : Nat) :
    Nested .expr (ladder n) (ladderTree n : Expr α) n (2 * n + 1) := by
  have x : Nested .primary [.var "x"] (.var "x" : Expr α) 0 0 := .var "x"
  induction n with
  | zero => exact x.factor.term.expr.bin .add x.factor.term
  | succ n ih =>
    have whole := x.factor.term.expr.bin .add (x.factor.term.bin .mul ih.group.factor)
    have width : max 0 (Op.add.widen (max 0 (Op.mul.widen (2 * n + 1)))) = 2 * (n + 1) + 1 := by
      simp only [Op.widen]
      omega
    have depth : max 0 (Op.add.deepen (max 0 (Op.mul.deepen (n + 1)))) = n + 1 := by
      simp only [Op.deepen]
      omega
    rwa [width, depth] at whole

/-- All that is nested in a ladder is in one place, so that everything counts. -/
theorem sentence_ladder (n : Nat) :
    Sentence .expr (ladder n) (ladderTree n : Expr α) (3 * n + 1) := by
  have x : Sentence .primary [.var "x"] (.var "x" : Expr α) 0 := .var "x"
  induction n with
  | zero => exact x.factor.term.expr.bin .add x.factor.term
  | succ n ih =>
    have whole := x.factor.term.expr.bin .add (x.factor.term.bin .mul ih.group.factor)
    have depth : max 0 (max 0 (3 * n + 1 + 1 + 1) + 1) = 3 * (n + 1) + 1 := by omega
    rwa [depth] at whole

namespace Expr

/-- With twenty groups a ladder is accepted. -/
theorem ofTokens_of_nested_ladder :
    Nested .expr (ladder 20) (ladderTree 20 : Expr Float) 20 41 ∧
      ofTokens (ladder 20) = .ok (ladderTree 20 : Expr Float) :=
  ⟨nested_ladder 20, (ofTokens_of_nested (nested_ladder 20)).2.1 (by decide)⟩

/-- With one group more it is refused, a third of the way to the limit. -/
theorem ofTokens_of_nested_refused :
    Nested .expr (ladder 21) (ladderTree 21 : Expr Float) 21 43 ∧ 21 < maxDepth ∧
      (∃ i, ofTokens (ladder 21 : List (Token Float)) = .error (.unexpected i .tooDeep)) ∧
      ¬∀ (ts : List (Token Float)) (e : Expr Float) (n k : Nat),
        Nested .expr ts e n k → n < maxDepth → ofTokens ts = .ok e := by
  obtain ⟨i, refused⟩ := ofTokens_tooDeep (sentence_ladder 21 : Sentence .expr _ _ _) (α := Float)
    (by decide)
  refine ⟨nested_ladder 21, by decide, ⟨i, refused⟩, fun accepts => ?_⟩
  have accepted := accepts _ _ _ _ (nested_ladder 21) (by decide)
  rw [refused] at accepted
  cases accepted

end Expr

end Univariate
