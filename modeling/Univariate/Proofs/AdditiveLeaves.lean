import Mathlib.Data.Nat.Bits
import Univariate.Polynomial.Derivative
import Univariate.Proofs.AnswerEdits
import Univariate.Proofs.Routes

/-!
# The leaves of a sum

Sums, differences and the minuses in front of them are the inner nodes of an additive structure, and
the subtrees below them are its leaves. A polynomial is collected from the leaves: each gives one
term or stays as it is, in their order, and a term is negated when an odd number of minuses stands
above its leaf.
-/
namespace Univariate

/-- The routes part at a node where the first one turns left and the second one turns right. -/
def IsLeftOf (p q : Route) : Prop :=
  ∃ common a b, p = common ++ .left :: a ∧ q = common ++ .right :: b

theorem isLeftOf_turns (p q : Route) : IsLeftOf (.left :: p) (.right :: q) := ⟨[], p, q, rfl, rfl⟩

theorem IsLeftOf.cons {p q : Route} (h : IsLeftOf p q) (t : Turn) : IsLeftOf (t :: p) (t :: q) := by
  obtain ⟨common, a, b, rfl, rfl⟩ := h
  exact ⟨t :: common, a, b, rfl, rfl⟩

namespace Expr

variable {α : Type}

/-- A sum, a difference, or a minus directly over one of these. -/
def isAdditive : Expr α → Bool
  | neg e => e.isSum
  | e => e.isSum

/-- The turns below a minus of the additive structure. -/
def negates : Expr α → Turn → Bool
  | neg e, .only => e.isSum
  | bin .sub _ _, .right => true
  | _, _ => false

/-- How many minuses of the additive structure stand above the end of a route. -/
def minusesAbove (e : Expr α) : Route → Nat
  | [] => 0
  | t :: p => (e.negates t).toNat + ((e.operand? t).elim 0 fun operand => operand.minusesAbove p)

/-- A subtree that is not additive and stands in no larger one that is not additive either. -/
structure IsLeaf (e : Expr α) (p : Route) (s : Expr α) : Prop where
  subtree : e.at? p = some s
  single : s.isAdditive = false
  maximal : ∀ q larger, q <+: p → q ≠ p → e.at? q = some larger → larger.isAdditive = true

/-- The leaves of an operand, with their routes from the node above it. -/
def prepend (t : Turn) (leaves : List (Route × Expr α)) : List (Route × Expr α) :=
  leaves.map fun leaf => (t :: leaf.1, leaf.2)

/-- The leaves with their routes, from left to right. -/
def leaves : Expr α → List (Route × Expr α)
  | bin .add l r | bin .sub l r => prepend .left l.leaves ++ prepend .right r.leaves
  | neg e => if e.isSum then prepend .only e.leaves else [([], neg e)]
  | e => [([], e)]

/-! ## Additive nodes -/

/-- Sums and differences are treated alike, so an induction has three kinds of nodes. -/
theorem additive_induction {motive : Expr α → Prop}
    (single : ∀ e, e.isAdditive = false → motive e)
    (minus : ∀ e, e.isSum = true → motive e → motive (neg e))
    (sum : ∀ op l r, (bin op l r).isSum = true → motive l → motive r → motive (bin op l r))
    (e : Expr α) : motive e := by
  induction e with
  | num _ | var _ | call _ _ _ => exact single _ rfl
  | neg e ih =>
    cases additive : e.isSum with
    | true => exact minus e additive ih
    | false => exact single _ additive
  | bin op l r left right =>
    cases additive : (bin op l r).isSum with
    | true => exact sum op l r additive left right
    | false => exact single _ additive

variable {e l r s : Expr α} {op : Op} {p : Route} {t : Turn}

theorem leaves_of_not_isAdditive (h : e.isAdditive = false) : e.leaves = [([], e)] := by
  cases e with
  | num _ | var _ | call _ _ => rfl
  | neg e => exact if_neg (by simpa [isAdditive] using h)
  | bin op l r => cases op <;> first | rfl | cases h

theorem leaves_neg (h : e.isSum = true) : (neg e).leaves = prepend .only e.leaves := if_pos h

theorem leaves_bin (h : (bin op l r).isSum = true) :
    (bin op l r).leaves = prepend .left l.leaves ++ prepend .right r.leaves := by
  cases op <;> first | rfl | cases h

/-! ## Which subtrees are leaves -/

theorem isLeaf_nil_iff : e.IsLeaf [] s ↔ e = s ∧ s.isAdditive = false := by
  constructor
  · rintro ⟨subtree, single, _⟩
    exact ⟨Option.some.inj subtree, single⟩
  · rintro ⟨rfl, single⟩
    refine ⟨rfl, single, fun q _ before other _ => ?_⟩
    exact absurd (List.prefix_nil.mp before) other

theorem not_isLeaf_nil (h : e.isAdditive = true) : ¬e.IsLeaf [] s := by
  rw [isLeaf_nil_iff]
  rintro ⟨rfl, single⟩
  exact absurd (h.symm.trans single) (by decide)

theorem isLeaf_cons_iff : e.IsLeaf (t :: p) s ↔
    e.isAdditive = true ∧ ∃ operand, e.operand? t = some operand ∧ operand.IsLeaf p s := by
  constructor
  · rintro ⟨subtree, single, maximal⟩
    obtain ⟨operand, turn, subtree⟩ := at?_cons_eq_some_iff.mp subtree
    refine ⟨maximal [] e List.nil_prefix (by simp) rfl, operand, turn, subtree, single, ?_⟩
    intro q larger before other found
    exact maximal (t :: q) larger (List.cons_prefix_cons.mpr ⟨rfl, before⟩) (by simpa using other)
      (at?_cons_eq_some_iff.mpr ⟨operand, turn, found⟩)
  · rintro ⟨additive, operand, turn, subtree, single, maximal⟩
    refine ⟨at?_cons_eq_some_iff.mpr ⟨operand, turn, subtree⟩, single, ?_⟩
    intro q larger before other found
    cases q with
    | nil =>
      cases found
      exact additive
    | cons u q =>
      obtain ⟨rfl, shorter⟩ := List.cons_prefix_cons.mp before
      obtain ⟨same, turn', found⟩ := at?_cons_eq_some_iff.mp found
      obtain rfl : operand = same := Option.some.inj (turn.symm.trans turn')
      exact maximal q larger shorter (by simpa using other) found

theorem mem_prepend_iff {ls : List (Route × Expr α)} :
    (p, s) ∈ prepend t ls ↔ ∃ q, p = t :: q ∧ (q, s) ∈ ls := by
  simp only [prepend, List.mem_map, Prod.mk.injEq, Prod.exists]
  constructor
  · rintro ⟨q, s, leaf, rfl, rfl⟩
    exact ⟨q, rfl, leaf⟩
  · rintro ⟨q, rfl, leaf⟩
    exact ⟨q, s, leaf, rfl, rfl⟩

/-- The leaves are all listed, and nothing else is. -/
theorem mem_leaves_iff : (p, s) ∈ e.leaves ↔ e.IsLeaf p s := by
  induction e using additive_induction generalizing p with
  | single e single =>
    rw [leaves_of_not_isAdditive single]
    cases p with
    | nil =>
      rw [isLeaf_nil_iff, List.mem_singleton, Prod.mk.injEq]
      constructor
      · rintro ⟨_, rfl⟩
        exact ⟨rfl, single⟩
      · rintro ⟨rfl, _⟩
        exact ⟨rfl, rfl⟩
    | cons t p => simp [isLeaf_cons_iff, single]
  | minus e additive ih =>
    have whole : (neg e).isAdditive = true := additive
    rw [leaves_neg additive, mem_prepend_iff]
    cases p with
    | nil => simp [not_isLeaf_nil whole]
    | cons t p => cases t <;> simp [isLeaf_cons_iff, whole, operand?, ih]
  | sum op l r additive left right =>
    have whole : (bin op l r).isAdditive = true := additive
    rw [leaves_bin additive, List.mem_append, mem_prepend_iff, mem_prepend_iff]
    cases p with
    | nil => simp [not_isLeaf_nil whole]
    | cons t p => cases t <;> simp [isLeaf_cons_iff, whole, operand?, left, right]

@[simp] theorem map_snd_prepend (t : Turn) (ls : List (Route × Expr α)) :
    (prepend t ls).map Prod.snd = ls.map Prod.snd := by
  simp [prepend]

theorem pairwise_prepend {ls : List (Route × Expr α)} (h : ls.Pairwise fun a b => IsLeftOf a.1 b.1)
    (t : Turn) : (prepend t ls).Pairwise fun a b => IsLeftOf a.1 b.1 :=
  List.pairwise_map.mpr (h.imp fun before => before.cons t)

theorem pairwise_leaves (e : Expr α) : e.leaves.Pairwise fun a b => IsLeftOf a.1 b.1 := by
  induction e using additive_induction with
  | single e single =>
    rw [leaves_of_not_isAdditive single]
    exact List.pairwise_singleton _ _
  | minus e additive ih =>
    rw [leaves_neg additive]
    exact pairwise_prepend ih _
  | sum op l r additive left right =>
    rw [leaves_bin additive, List.pairwise_append]
    refine ⟨pairwise_prepend left _, pairwise_prepend right _, ?_⟩
    rintro ⟨p, s⟩ first ⟨q, u⟩ second
    obtain ⟨p, rfl, _⟩ := mem_prepend_iff.mp first
    obtain ⟨q, rfl, _⟩ := mem_prepend_iff.mp second
    exact isLeftOf_turns p q

end Expr

/-! ## Collecting them -/

namespace Monomial

variable {α : Type} [Arith α]

/-- A monomial below a number of minuses. -/
def signed (minuses : Nat) (m : Monomial α) : Monomial α :=
  if minuses.bodd then m.negated else m

end Monomial

namespace Polynomial

variable {α : Type} [Arith α] {e l r : Expr α}

theorem collect_of_not_isAdditive (negate : Bool) (h : e.isAdditive = false) :
    collect negate e = ofTerm negate e := by
  cases e with
  | num _ | var _ | call _ _ => rfl
  | neg e => exact if_neg (by simpa [Expr.isAdditive] using h)
  | bin op l r => cases op <;> first | rfl | cases h

theorem collect_neg (negate : Bool) (h : e.isSum = true) :
    collect negate (.neg e) = collect (!negate) e := if_pos h

/-- The minuses above the right operand of a difference are one more. -/
theorem collect_bin {op : Op} (k : Nat) (h : (Expr.bin op l r).isSum = true) :
    collect k.bodd (.bin op l r) = (collect k.bodd l).append
      (collect (k + ((Expr.bin op l r).negates .right).toNat).bodd r) := by
  cases op with
  | add => rfl
  | sub => rw [collect, ← Nat.bodd_succ]; rfl
  | mul | div | pow => cases h

/-- The term of a leaf that is one. -/
def leafTerm? (k : Nat) (e : Expr α) (leaf : Route × Expr α) : Option (Monomial α) :=
  (Monomial.ofTerm? leaf.2).map (Monomial.signed (k + e.minusesAbove leaf.1))

/-- The minuses of a node count for the leaves of its operand. -/
theorem filterMap_prepend {t : Turn} {operand : Expr α} (turn : e.operand? t = some operand)
    (k : Nat) (ls : List (Route × Expr α)) : (Expr.prepend t ls).filterMap (leafTerm? k e) =
      ls.filterMap (leafTerm? (k + (e.negates t).toNat) operand) := by
  rw [Expr.prepend, List.filterMap_map]
  refine List.filterMap_congr fun leaf _ => ?_
  simp [leafTerm?, Expr.minusesAbove, turn, Nat.add_assoc]

/-- A tree below `k` minuses is collected leaf by leaf. The induction counts the minuses on the way
down, of which the collector sees only whether they are odd. -/
theorem collect_eq (k : Nat) (e : Expr α) : collect k.bodd e =
    ⟨e.leaves.filterMap (leafTerm? k e),
      (e.leaves.map Prod.snd).filter fun s => (Monomial.ofTerm? s).isNone⟩ := by
  induction e using Expr.additive_induction generalizing k with
  | single e single =>
    rw [collect_of_not_isAdditive _ single, Expr.leaves_of_not_isAdditive single, ofTerm]
    cases term : Monomial.ofTerm? e with
    | none => simp [leafTerm?, term]
    | some m => simp [leafTerm?, term, Monomial.signed, Expr.minusesAbove]
  | minus e additive ih =>
    have one : ((Expr.neg e).negates .only).toNat = 1 := by rw [Expr.negates, additive]; rfl
    rw [collect_neg _ additive, ← Nat.bodd_succ, ih, Expr.leaves_neg additive, filterMap_prepend rfl,
      one, Expr.map_snd_prepend]
  | sum op l r additive left right =>
    have none : ((Expr.bin op l r).negates .left).toNat = 0 := by cases op <;> rfl
    rw [collect_bin k additive, left, right, Expr.leaves_bin additive, append]
    simp only [List.filterMap_append, List.map_append, List.filter_append, Expr.map_snd_prepend,
      filterMap_prepend (e := .bin op l r) (t := .left) rfl,
      filterMap_prepend (e := .bin op l r) (t := .right) rfl, none, Nat.add_zero]

theorem length_collect (k : Nat) (e : Expr α) :
    (collect k.bodd e).terms.length + (collect k.bodd e).unsupported.length = e.leaves.length := by
  rw [collect_eq, List.length_filterMap_eq_countP, ← List.countP_eq_length_filter, List.countP_map,
    List.length_eq_countP_add_countP fun leaf => (leafTerm? k e leaf).isSome]
  refine congrArg _ (List.countP_congr fun leaf _ => ?_)
  simp [leafTerm?]

end Polynomial

/-! ## Texts with an equals sign -/

variable {α : Type} [Numeral α] {v input : String} {e : Expr α}

/-- What is parsed has no equals sign anywhere. -/
theorem Expr.equals_not_mem_of_parse (h : parse v input = .ok e) : '=' ∉ input.toList := by
  intro equals
  obtain ⟨ts, scanned, _⟩ := scan_of_parse h
  obtain ⟨ls, _, text⟩ := Lexeme.of_scan scanned
  have read : '=' ∈ Lexeme.spell ls := by
    rw [text]
    exact Answer.mem_mergePowers_of_mem (by decide)
      (Text.mem_clean (Text.isSmall_of_lt (by decide)) (by decide +kernel) equals)
  refine Lexeme.not_mem_spell (by decide) (by decide +kernel) (fun t token => ?_) read
  cases token

/-- A text that is parsed is differentiated as a polynomial. -/
theorem differentiate_of_parse [Arith α] (h : Expr.parse v input = .ok e) :
    differentiate α v input = (Polynomial.ofExpr e).differentiate (Text.lower v) := by
  rw [differentiate, if_neg (Expr.equals_not_mem_of_parse h), h]

variable [Arith α]

theorem Polynomial.differentiate_of_head? {p : Polynomial α} {s : Expr α}
    (h : p.unsupported.head? = some s) (var : String) :
    p.differentiate var = .error (.unsupportedForm s.render) := by
  obtain ⟨others, unsupported⟩ := List.head?_eq_some_iff.mp h
  rw [Polynomial.differentiate, unsupported]

namespace Expr

/-! ## Each leaf once -/

open Monomial

/-- The leaves of the additive structure, which are listed from left to right, are each kept once:
as a term, negated below an odd number of minuses, or as it is when it is no monomial. The first
leaf that is no monomial is the one that differentiation names. -/
theorem collects_leaves (e : Expr α) :
    (∀ p s, (p, s) ∈ e.leaves ↔ e.IsLeaf p s) ∧
      (e.leaves.Pairwise fun a b => IsLeftOf a.1 b.1) ∧
      (Polynomial.ofExpr e).terms =
        e.leaves.filterMap (fun (p, s) => (ofTerm? s).map (signed (e.minusesAbove p))) ∧
      (Polynomial.ofExpr e).unsupported =
        (e.leaves.map Prod.snd).filter (fun s => (ofTerm? s).isNone) ∧
      (Polynomial.ofExpr e).terms.length + (Polynomial.ofExpr e).unsupported.length =
        e.leaves.length ∧
      ∀ var input, parse var input = .ok e →
        ∀ s, (e.leaves.map Prod.snd).find? (fun s => (ofTerm? s).isNone) = some s →
          differentiate α var input = .error (.unsupportedForm s.render) := by
  have collected : Polynomial.ofExpr e = _ := Polynomial.collect_eq 0 e
  refine ⟨fun p s => mem_leaves_iff, pairwise_leaves e, ?_, by rw [collected],
    Polynomial.length_collect 0 e, ?_⟩
  · rw [collected]
    refine List.filterMap_congr fun leaf _ => ?_
    rw [Polynomial.leafTerm?, Nat.zero_add]
  · intro var input parsed s first
    rw [differentiate_of_parse parsed]
    refine Polynomial.differentiate_of_head? ?_ _
    rw [collected, List.head?_filter, first]

/-- `4 - -(x - sin(x))` -/
def nestedMinuses : Expr Float :=
  .bin .sub (.num 4) (.neg (.bin .sub (.var "x") (.call .sin (.var "x"))))

theorem collects_leaves_nestedMinuses :
    nestedMinuses.leaves = [([.left], .num 4), ([.right, .only, .left], .var "x"),
      ([.right, .only, .right], .call .sin (.var "x"))] ∧
    nestedMinuses.IsLeaf [.right, .only, .right] (.call .sin (.var "x")) ∧
    parse "x" "4 - -(x - sin(x))" = .ok nestedMinuses ∧
    differentiate Float "x" "4 - -(x - sin(x))" = .error (.unsupportedForm "sin(x)") := by
  have parsed : parse "x" "4 - -(x - sin(x))" = .ok nestedMinuses := by decide +kernel
  obtain ⟨leaf, _, _, _, _, named⟩ := collects_leaves nestedMinuses
  refine ⟨rfl, (leaf _ _).mp (by decide +kernel), parsed, ?_⟩
  exact named "x" _ parsed (.call .sin (.var "x")) (by decide +kernel)

end Expr

end Univariate
