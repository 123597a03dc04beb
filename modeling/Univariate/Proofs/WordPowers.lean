import Univariate.Polynomial.Basic

/-!
# Powers as machine words

The same terms with powers that are words of 32 bits: their sum and difference wrap, and only their
product is checked. A term is read in both ways alike, so no sum or difference of powers ever wraps:
one summand is always zero, and one is taken from a positive power only.
-/
namespace Univariate

/-- A monomial whose power is a word. -/
structure WordTerm (α : Type) where
  coefficient : α
  power : UInt32

namespace WordTerm

variable {α : Type} [Arith α]

open Arith

def toMonomial (m : WordTerm α) : Monomial α := ⟨m.coefficient, m.power.toNat⟩

def negated (m : WordTerm α) : WordTerm α := { m with coefficient := -m.coefficient }

def derivative (m : WordTerm α) : WordTerm α :=
  if m.power = 0 then ⟨zero, 0⟩ else ⟨m.coefficient * ofNat m.power.toNat, m.power - 1⟩

def finite? (m : WordTerm α) : Option (WordTerm α) :=
  if isFinite m.coefficient then some m else none

def mul? (a b : WordTerm α) : Option (WordTerm α) :=
  if 0 < a.power ∧ 0 < b.power then none
  else finite? ⟨a.coefficient * b.coefficient, a.power + b.power⟩

def div? (a b : WordTerm α) : Option (WordTerm α) :=
  if 0 < b.power ∨ b.coefficient == zero then none
  else finite? ⟨a.coefficient / b.coefficient, a.power⟩

/-- The product of two words if it is one. -/
def checkedMul? (m n : UInt32) : Option UInt32 :=
  if m.toNat * n.toNat < UInt32.size then some (m * n) else none

def pow? (a b : WordTerm α) : Option (WordTerm α) :=
  if 0 < b.power then none
  else if a.power = 0 then finite? ⟨Arith.pow a.coefficient b.coefficient, 0⟩
  else do
    let n ← toNat? b.coefficient
    let power ← checkedMul? a.power (UInt32.ofNat n)
    finite? ⟨Arith.pow a.coefficient (ofNat n), power⟩

def ofTerm? : Expr α → Option (WordTerm α)
  | .num v => finite? ⟨v, 0⟩
  | .var _ => finite? ⟨one, 1⟩
  | .neg e => do finite? (← ofTerm? e).negated
  | .bin .mul l r => do mul? (← ofTerm? l) (← ofTerm? r)
  | .bin .div l r => do div? (← ofTerm? l) (← ofTerm? r)
  | .bin .pow l r => do pow? (← ofTerm? l) (← ofTerm? r)
  | .bin .add _ _ | .bin .sub _ _ | .call _ _ => none

/-- The terms of an expression, with signs. -/
def collect (negate : Bool) : Expr α → List (WordTerm α)
  | .bin .add l r => collect negate l ++ collect negate r
  | .bin .sub l r => collect negate l ++ collect (!negate) r
  | .neg e => if e.isSum then collect (!negate) e else signed negate (.neg e)
  | e => signed negate e
where
  signed (negate : Bool) (e : Expr α) : List (WordTerm α) :=
    ((ofTerm? e).map fun m => if negate then m.negated else m).toList

/-- One is taken from a positive power only. -/
theorem toMonomial_derivative (m : WordTerm α) :
    m.derivative.toMonomial = m.toMonomial.derivative := by
  by_cases constant : m.power = 0
  · simp [derivative, Monomial.derivative, Monomial.constant, toMonomial, constant]
  · have positive : m.power.toNat ≠ 0 := fun zero => constant (UInt32.toNat_inj.mp zero)
    obtain ⟨n, power⟩ := Nat.exists_eq_succ_of_ne_zero positive
    have one_le : (1 : UInt32) ≤ m.power := by
      rw [UInt32.le_iff_toNat_le, power]
      simp
    have fits : (m.power - 1).toNat = n := by
      rw [UInt32.toNat_sub_of_le _ _ one_le, power]
      rfl
    simp [derivative, Monomial.derivative, toMonomial, constant, fits, power]

theorem map_finite? (m : WordTerm α) :
    (finite? m).map toMonomial = Monomial.finite? m.toMonomial := by
  unfold finite?
  split
  · rename_i defined
    exact (if_pos defined).symm
  · rename_i undefined
    exact (if_neg undefined).symm

/-- Of the powers of a product at most one is not zero. -/
theorem map_mul? (a b : WordTerm α) :
    (mul? a b).map toMonomial = Monomial.mul? a.toMonomial b.toMonomial := by
  unfold mul?
  split
  · rename_i both
    exact (if_pos both).symm
  · rename_i constant
    have fits : (a.power + b.power).toNat = a.power.toNat + b.power.toNat := by
      have := a.power.toNat_lt
      have := b.power.toNat_lt
      rw [UInt32.lt_iff_toNat_lt, UInt32.lt_iff_toNat_lt, UInt32.toNat_zero] at constant
      rw [UInt32.toNat_add]
      omega
    rw [map_finite?, toMonomial, fits]
    exact (if_neg constant).symm

theorem map_div? (a b : WordTerm α) :
    (div? a b).map toMonomial = Monomial.div? a.toMonomial b.toMonomial := by
  unfold div?
  split
  · rename_i refused
    exact (if_pos refused).symm
  · rename_i divisor
    rw [map_finite?]
    exact (if_neg divisor).symm

theorem lt_size_iff {k : Nat} : k < UInt32.size ↔ k ≤ maxNat := Nat.lt_succ_iff

theorem toNat_ofNat {n : Nat} (small : n ≤ maxNat) : (UInt32.ofNat n).toNat = n :=
  UInt32.toNat_ofNat_of_lt' (lt_size_iff.mpr small)

/-- The checked product is the product of the numbers. -/
theorem checkedMul?_of_le {m : UInt32} {n : Nat} (small : n ≤ maxNat)
    (fits : m.toNat * n ≤ maxNat) :
    ∃ k, checkedMul? m (UInt32.ofNat n) = some k ∧ k.toNat = m.toNat * n := by
  refine ⟨m * UInt32.ofNat n, ?_, ?_⟩
  · rw [checkedMul?, toNat_ofNat small, if_pos (lt_size_iff.mpr fits)]
  · rw [UInt32.toNat_mul, toNat_ofNat small]
    exact Nat.mod_eq_of_lt (lt_size_iff.mpr fits)

theorem checkedMul?_of_not_le {m : UInt32} {n : Nat} (small : n ≤ maxNat)
    (large : ¬ m.toNat * n ≤ maxNat) : checkedMul? m (UInt32.ofNat n) = none := by
  rw [checkedMul?, toNat_ofNat small, if_neg (mt lt_size_iff.mp large)]

/-- What `toNat?` answers with is a word. -/
def Bounded (α : Type) [Arith α] : Prop := ∀ (c : α) (n : Nat), toNat? c = some n → n ≤ maxNat

theorem map_pow? (bounded : Bounded α) (a b : WordTerm α) :
    (pow? a b).map toMonomial = Monomial.pow? a.toMonomial b.toMonomial := by
  unfold pow? Monomial.pow?
  by_cases exponent : 0 < b.power
  · rw [if_pos exponent]
    exact (if_pos exponent).symm
  · rw [if_neg exponent]
    refine Eq.trans ?_ (if_neg exponent).symm
    by_cases base : a.power = 0
    · rw [if_pos base, map_finite?]
      exact (if_pos (congrArg UInt32.toNat base)).symm
    · have positive : a.toMonomial.power ≠ 0 := fun zero => base (UInt32.toNat_inj.mp zero)
      rw [if_neg base, if_neg positive]
      change Option.map _ ((toNat? b.coefficient).bind _) = _
      cases natural : toNat? b.coefficient with
      | none => simp [toMonomial, natural]
      | some n =>
        have small := bounded _ n natural
        simp only [toMonomial, natural, Option.bind_some]
        by_cases fits : a.power.toNat * n ≤ maxNat
        · obtain ⟨power, checked, exact⟩ := checkedMul?_of_le small fits
          rw [checked]
          refine Eq.trans ?_ (if_pos fits).symm
          rw [← exact]
          exact map_finite? _
        · rw [checkedMul?_of_not_le small fits]
          exact (if_neg fits).symm

/-- A term is read in both ways alike. -/
theorem map_ofTerm? (bounded : Bounded α) (e : Expr α) :
    (ofTerm? e).map toMonomial = Monomial.ofTerm? e := by
  have operands {f : WordTerm α → WordTerm α → Option (WordTerm α)}
      {g : Monomial α → Monomial α → Option (Monomial α)}
      (same : ∀ a b, (f a b).map toMonomial = g a.toMonomial b.toMonomial)
      {l r : Option (WordTerm α)} : (do f (← l) (← r)).map toMonomial =
        (do g (← l.map toMonomial) (← r.map toMonomial)) := by
    cases l with
    | none => rfl
    | some a =>
      cases r with
      | none => rfl
      | some b => exact same a b
  induction e with
  | num v => exact map_finite? _
  | var name => exact map_finite? _
  | neg e ih =>
    rw [ofTerm?, Monomial.ofTerm?, ← ih]
    cases ofTerm? e with
    | none => rfl
    | some m => exact map_finite? m.negated
  | bin op l r left right =>
    cases op with
    | add | sub => rfl
    | mul => rw [ofTerm?, Monomial.ofTerm?, ← left, ← right, operands map_mul?]
    | div => rw [ofTerm?, Monomial.ofTerm?, ← left, ← right, operands map_div?]
    | pow => rw [ofTerm?, Monomial.ofTerm?, ← left, ← right, operands (map_pow? bounded)]
  | call f e ih => rfl

theorem map_signed (bounded : Bounded α) (negate : Bool) (e : Expr α) :
    (collect.signed negate e).map toMonomial = (Polynomial.ofTerm negate e).terms := by
  rw [collect.signed, Polynomial.ofTerm, ← map_ofTerm? bounded]
  cases ofTerm? e with
  | none => rfl
  | some m => cases negate <;> rfl

theorem map_collect (bounded : Bounded α) (negate : Bool) (e : Expr α) :
    (collect negate e).map toMonomial = (Polynomial.collect negate e).terms := by
  fun_induction Polynomial.collect negate e with
  | case1 negate l r left right => rw [collect, List.map_append, left, right]; rfl
  | case2 negate l r left right => rw [collect, List.map_append, left, right]; rfl
  | case3 negate e sum ih => rw [collect, if_pos sum, ih]
  | case4 negate e single => rw [collect, if_neg single, map_signed bounded]
  | case5 negate e noAdd noSub noNeg => rw [collect.eq_4 _ _ noAdd noSub noNeg, map_signed bounded]

/-- All powers are words. -/
theorem power_le_of_mem_collect (bounded : Bounded α) {negate : Bool} {e : Expr α}
    {m : Monomial α} (h : m ∈ (Polynomial.collect negate e).terms) : m.power ≤ maxNat := by
  rw [← map_collect bounded] at h
  obtain ⟨k, _, rfl⟩ := List.mem_map.mp h
  exact lt_size_iff.mp k.power.toNat_lt

/-- The derivatives of the words are those of the monomials. -/
theorem map_derivative (ms : List (WordTerm α)) :
    (ms.map derivative).map toMonomial = (ms.map toMonomial).map Monomial.derivative := by
  rw [List.map_map, List.map_map]
  exact List.map_congr_left fun m _ => toMonomial_derivative m

end WordTerm

end Univariate
