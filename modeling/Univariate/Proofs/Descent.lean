import Univariate.Proofs.Parsing

/-!
# Parsing by descent

The parser can also be written by recursion on the nesting. An operand is read, and then operators
as long as they bind tighter than what waits for the operand. The inside of a group is read until
nothing of it is left, and a closing parenthesis has to follow. What the parser keeps in lists is
then in the recursion. A descent has one more way to fail, at a group that goes on after its inside.
Both give the same result on every list of tokens, so that failure never comes about.
-/
namespace Univariate.Descent

open Univariate.Parser

variable {α : Type}

inductive Failure where
  | fault : Fault → Failure
  | missingClosing (index : Nat)
  deriving DecidableEq, Repr

def Failure.label : Failure → String
  | fault (.unexpected _ why) => why.label
  | fault (.unbalanced _ side) => side.label
  | missingClosing _ => "Expected closing paren"

/-- A tree and the tokens after it, of which there are less than before it. -/
structure Parsed (α : Type) (size : Nat) where
  tree : Expr α
  rest : List (Token α)
  shorter : rest.length < size

/-- The index of the first of the last tokens of `n`. -/
def place (n : Nat) (ts : List (Token α)) : Nat := n - ts.length

def endFault (n : Nat) : (innermost : Option Nat) → Fault
  | none => .unexpected n .missingValue
  | some index => .unbalanced index .unclosed

/-- Goes over the closing parenthesis of the group that was opened at an index. -/
def close (n opened : Nat) {size : Nat} :
    Parsed α size → Except Failure (Parsed α size)
  | ⟨_, [], _⟩ => .error (.fault (.unbalanced opened .unclosed))
  | ⟨e, .closing :: rest, shorter⟩ => .ok ⟨e, rest, Nat.lt_of_succ_lt shorter⟩
  | ⟨_, t :: rest, _⟩ => .error (.missingClosing (place n (t :: rest)))

/-- Takes in what stands before the tree, if anything does. -/
def Parsed.map {size more : Nat} (f : Expr α → Expr α) (le : size ≤ more) (e : Parsed α size) :
    Parsed α more :=
  ⟨f e.tree, e.rest, Nat.lt_of_lt_of_le e.shorter le⟩

mutual

/-- Of `n` tokens the last ones are ahead, `depth` things wait, and the innermost open group has its
parenthesis at an index. -/
def operand (n depth : Nat) (innermost : Option Nat) :
    (ts : List (Token α)) → Except Failure (Parsed α ts.length)
  | [] => .error (.fault (endFault n innermost))
  | .num v :: ts => .ok ⟨.num v, ts, Nat.lt_succ_self _⟩
  | .var name :: ts => .ok ⟨.var name, ts, Nat.lt_succ_self _⟩
  | .op .sub :: ts => do
    let e ← expr n minusBinding (depth + 1) innermost ts
    return e.map .neg (Nat.le_add_right _ 1)
  | .op op :: ts => .error (.fault (.unexpected (place n (.op op :: ts)) (.operator op)))
  | .opening :: ts => do
    let opened := place n (.opening :: ts)
    let e ← expr n 0 (depth + 1) (some opened) ts
    return (← close n opened e).map id (Nat.le_add_right _ 1)
  | .closing :: ts => .error (.fault (.unexpected (place n (.closing :: ts)) .closing))
  | .func f :: .opening :: ts => do
    let opened := place n (.opening :: ts)
    let e ← expr n 0 (depth + 1) (some opened) ts
    return (← close n opened e).map (.call f) (Nat.le_add_right _ 2)
  | .func f :: t :: ts => .error (.fault (.unexpected (place n (t :: ts)) .bareFunction))
  | [.func f] =>
    .error (.fault (.unexpected (place n [(.func f : Token α)]) .bareFunction))
termination_by ts => (ts.length, 0)

/-- The operators that are taken in bind tighter than `min`. -/
def expr (n min depth : Nat) (innermost : Option Nat) (ts : List (Token α)) :
    Except Failure (Parsed α ts.length) :=
  if maxDepth ≤ depth then .error (.fault (.unexpected (place n ts - 1) .tooDeep))
  else do
    let e ← operand n depth innermost ts
    have := e.shorter
    return (← operators n min depth innermost e.tree e.rest).map id e.shorter
termination_by (ts.length, 1)

def operators (n min depth : Nat) (innermost : Option Nat) (left : Expr α) :
    (ts : List (Token α)) → Except Failure (Parsed α (ts.length + 1))
  | [] => .ok ⟨left, [], Nat.lt_succ_self _⟩
  | .closing :: ts => .ok ⟨left, .closing :: ts, Nat.lt_succ_self _⟩
  | .op op :: ts =>
    if op.binding ≤ min then .ok ⟨left, .op op :: ts, Nat.lt_succ_self _⟩
    else do
      let right ← expr n op.rightBinding (depth + 1) innermost ts
      have := right.shorter
      let whole ← operators n min depth innermost (.bin op left right.tree) right.rest
      return whole.map id (Nat.le_trans right.shorter (Nat.le_add_right _ 2))
  | t :: ts => .error (.fault (.unexpected (place n (t :: ts)) .missingOperator))
termination_by ts => (ts.length, 0)

end

def parse (ts : List (Token α)) : Except Failure (Expr α) := do
  let e ← expr ts.length 0 0 none ts
  match e.rest with
  | .closing :: rest =>
    .error (.fault (.unbalanced (place ts.length (.closing :: rest)) .unmatched))
  | _ => .ok e.tree

/-! ## Where a descent stops -/

/-- No operator that binds tighter comes next, nor another operand. -/
def Stops (binding : Nat) (ts : List (Token α)) : Prop :=
  ∀ t ∈ ts.head?, t = .closing ∨ ∃ op, t = .op op ∧ op.binding ≤ binding

theorem operators_stops {n min depth : Nat} {innermost : Option Nat} {left : Expr α}
    {ts : List (Token α)} {e : Parsed α (ts.length + 1)}
    (h : operators n min depth innermost left ts = .ok e) : Stops min e.rest := by
  match ts with
  | [] =>
    rw [operators] at h
    cases h
    simp [Stops]
  | .closing :: ts =>
    rw [operators] at h
    cases h
    simp [Stops]
  | .op op :: ts =>
    rw [operators] at h
    split at h
    · rename_i loose
      cases h
      simpa [Stops] using loose
    · cases inner : expr n op.rightBinding (depth + 1) innermost ts with
      | error failure => rw [inner] at h; cases h
      | ok right =>
        have := right.shorter
        cases outer : operators n min depth innermost (.bin op left right.tree) right.rest with
        | error failure => simp [inner, outer, bind, Except.bind] at h
        | ok whole =>
          simp only [inner, outer, bind, Except.bind, pure, Except.pure, Except.ok.injEq] at h
          subst h
          have later := operators_stops outer
          exact later
  | .num _ :: ts | .var _ :: ts | .opening :: ts | .func _ :: ts =>
    rw [operators] at h
    · cases h
    · simp
    · simp
termination_by ts.length

theorem expr_stops {n min depth : Nat} {innermost : Option Nat} {ts : List (Token α)}
    {e : Parsed α ts.length} (h : expr n min depth innermost ts = .ok e) : Stops min e.rest := by
  rw [expr] at h
  split at h
  · cases h
  · cases first : operand n depth innermost ts with
    | error failure => rw [first] at h; cases h
    | ok left =>
      cases whole : operators n min depth innermost left.tree left.rest with
      | error failure => simp [first, whole, bind, Except.bind] at h
      | ok more =>
        simp only [first, whole, bind, Except.bind, pure, Except.pure, Except.ok.injEq] at h
        subst h
        exact operators_stops whole

/-- The inside of a group is read up to a closing parenthesis or the end. -/
theorem head?_rest_inside {n depth : Nat} {innermost : Option Nat} {ts : List (Token α)}
    {e : Parsed α ts.length} (h : expr n 0 depth innermost ts = .ok e) :
    e.rest.head? = none ∨ e.rest.head? = some .closing := by
  cases next : e.rest.head? with
  | none => exact .inl rfl
  | some t =>
    obtain rfl | ⟨op, rfl, loose⟩ := expr_stops h t next
    · exact .inr rfl
    · exact absurd loose (by cases op <;> decide)

/-! ## The descent and the parser agree -/

theorem place_cons {n : Nat} {t : Token α} {ts : List (Token α)} (fits : (t :: ts).length ≤ n) :
    place n (t :: ts) + 1 = place n ts := by
  simp only [place, List.length_cons] at *
  omega

/-- An operand that ends here completes the innermost thing that waits for it. -/
theorem afterOperand_complete {p : Pending α} {ts : List (Token α)} (stops : Stops p.binding ts)
    (i : Nat) (ps : List (Pending α)) (gs : List (Group α)) (e : Expr α) :
    afterOperand i (p :: ps) gs e ts = afterOperand i ps gs (p.complete e) ts := by
  cases ts with
  | nil => rfl
  | cons t ts =>
    obtain rfl | ⟨op, rfl, loose⟩ := stops t rfl
    · rfl
    · simp only [afterOperand, reduce, if_pos loose]

/-- The parser after what a descent has read. -/
def resume (n : Nat) (ps : List (Pending α)) (gs : List (Group α)) {size : Nat}
    (e : Parsed α size) : Except Failure (Expr α) :=
  (afterOperand (place n e.rest) ps gs e.tree e.rest).mapError .fault

def innermost (gs : List (Group α)) : Option Nat := gs.head?.map Group.index

theorem endFault_innermost (n : Nat) (gs : List (Group α)) :
    endFault n (innermost gs) = Parser.endFault n gs := by
  cases gs <;> rfl

theorem resume_map {n size more : Nat} (read : Except Failure (Parsed α size)) (le : size ≤ more)
    (ps : List (Pending α)) (gs : List (Group α)) :
    read >>= resume n ps gs = (do return (← read).map id le) >>= resume n ps gs := by
  cases read <;> rfl

/-- What is read for the innermost thing that waits completes it. -/
theorem expr_resume_complete {n depth : Nat} {inside : Option Nat} {ts : List (Token α)}
    {more : Nat} (p : Pending α) (ps : List (Pending α)) (gs : List (Group α))
    (le : ts.length ≤ more) :
    expr n p.binding depth inside ts >>= resume n (p :: ps) gs =
      (do return (← expr n p.binding depth inside ts).map p.complete le) >>=
        resume n ps gs := by
  cases read : expr n p.binding depth inside ts with
  | error failure => rfl
  | ok e =>
    change resume n (p :: ps) gs e = resume n ps gs (e.map p.complete le)
    rw [resume, afterOperand_complete (expr_stops read)]
    rfl

/-- What is read in a group is its inside, and the group is closed or both report that it is not. -/
theorem expr_resume_close {n depth : Nat} {inside : Option Nat} {ts : List (Token α)}
    {more : Nat} (fits : ts.length ≤ n) (g : Group α) (gs : List (Group α))
    (le : ts.length ≤ more) :
    expr n 0 depth inside ts >>= resume n [] (g :: gs) =
      (do return (← close n g.index (← expr n 0 depth inside ts)).map g.complete le) >>=
        resume n g.outer gs := by
  cases read : expr n 0 depth inside ts with
  | error failure => rfl
  | ok e =>
    change resume n [] (g :: gs) e =
      (close n g.index e >>= fun e => .ok (e.map g.complete le)) >>= resume n g.outer gs
    have stops := head?_rest_inside read
    obtain ⟨tree, rest, shorter⟩ := e
    cases rest with
    | nil => rfl
    | cons t rest =>
      obtain none | closing := stops
      · cases none
      · obtain rfl : t = .closing := by simpa using closing
        have fits : (.closing :: rest : List (Token α)).length ≤ n := by
          rw [List.length_cons] at shorter ⊢
          omega
        simp only [resume, close, afterOperand, place_cons fits]
        rfl

/-- An operand is read if there is room for what waits for it. -/
def enter (i : Nat) (ps : List (Pending α)) (gs : List (Group α)) (ts : List (Token α)) :
    Except Fault (Expr α) :=
  if depth ps gs < maxDepth then beforeOperand i ps gs ts
  else .error (.unexpected (i - 1) .tooDeep)

theorem enter_cons (i : Nat) (p : Pending α) (ps : List (Pending α)) (gs : List (Group α))
    (ts : List (Token α)) :
    enter (i + 1) (p :: ps) gs ts =
      if hasRoom ps gs then beforeOperand (i + 1) (p :: ps) gs ts
      else .error (.unexpected i .tooDeep) := by
  simp [enter, hasRoom]

theorem enter_group (i : Nat) (g : Group α) (gs : List (Group α)) (ts : List (Token α)) :
    enter (i + 1) [] (g :: gs) ts =
      if hasRoom g.outer gs then beforeOperand (i + 1) [] (g :: gs) ts
      else .error (.unexpected i .tooDeep) := by
  simp [enter, hasRoom]

mutual

theorem beforeOperand_eq_operand {n : Nat} (ps : List (Pending α)) (gs : List (Group α))
    (ts : List (Token α)) (fits : ts.length ≤ n) :
    (beforeOperand (place n ts) ps gs ts).mapError .fault =
      operand n (depth ps gs) (innermost gs) ts >>= resume n ps gs := by
  match ts with
  | [] =>
    rw [operand, endFault_innermost]
    rfl
  | .num v :: ts | .var name :: ts =>
    rw [operand, beforeOperand, place_cons fits]
    rfl
  | .op o :: ts =>
    by_cases minus : o = .sub
    · subst minus
      have entered := enter_eq_expr (.minus :: ps) gs ts (Nat.le_of_succ_le fits)
      rw [← place_cons fits, enter_cons, depth_cons] at entered
      rw [operand, beforeOperand, entered]
      exact expr_resume_complete .minus ps gs (Nat.le_add_right _ 1)
    · rw [operand.eq_5 _ _ _ _ _ minus]
      cases o with
      | sub => exact absurd rfl minus
      | add | mul | div | pow => rfl
  | .opening :: ts =>
    let g : Group α := ⟨none, place n (.opening :: ts), ps⟩
    have entered := enter_eq_expr [] (g :: gs) ts (Nat.le_of_succ_le fits)
    rw [← place_cons fits, enter_group, depth_nil_cons] at entered
    rw [operand, beforeOperand, entered]
    exact expr_resume_close (Nat.le_of_succ_le fits) g gs (Nat.le_add_right _ 1)
  | .closing :: ts =>
    rw [operand]
    rfl
  | [.func f] =>
    rw [operand]
    rfl
  | .func f :: t :: ts =>
    have fits' : (t :: ts).length ≤ n := Nat.le_of_succ_le fits
    by_cases opening : t = .opening
    · subst opening
      let g : Group α := ⟨some f, place n (.opening :: ts), ps⟩
      have entered := enter_eq_expr [] (g :: gs) ts (Nat.le_of_succ_le fits')
      rw [← place_cons fits', enter_group, depth_nil_cons] at entered
      have two : place n (.func f :: .opening :: ts) + 2 = place n (.opening :: ts) + 1 := by
        rw [← place_cons fits]
      rw [operand, beforeOperand, place_cons fits, two, entered]
      exact expr_resume_close (Nat.le_of_succ_le fits') g gs (Nat.le_add_right _ 2)
    · rw [operand.eq_9 _ _ _ _ _ _ opening, ← place_cons fits]
      cases t with
      | opening => exact absurd rfl opening
      | num _ | var _ | op _ | closing | func _ => rfl
termination_by (ts.length, 0)

theorem enter_eq_expr {n : Nat} (ps : List (Pending α)) (gs : List (Group α))
    (ts : List (Token α)) (fits : ts.length ≤ n) :
    (enter (place n ts) ps gs ts).mapError .fault =
      expr n (threshold ps) (depth ps gs) (innermost gs) ts >>= resume n ps gs := by
  rw [enter, expr]
  by_cases room : depth ps gs < maxDepth
  · rw [if_pos room, if_neg (Nat.not_le.mpr room), beforeOperand_eq_operand ps gs ts fits]
    cases first : operand n (depth ps gs) (innermost gs) ts with
    | error failure => rfl
    | ok e =>
      have := e.shorter
      have whole := @afterOperand_eq_operators n ps gs e.tree e.rest (by omega)
      exact whole.trans (resume_map _ e.shorter ps gs)
  · rw [if_neg room, if_pos (Nat.not_lt.mp room)]
    rfl
termination_by (ts.length, 1)

theorem afterOperand_eq_operators {n : Nat} (ps : List (Pending α)) (gs : List (Group α))
    (left : Expr α) (ts : List (Token α)) (fits : ts.length ≤ n) :
    (afterOperand (place n ts) ps gs left ts).mapError .fault =
      operators n (threshold ps) (depth ps gs) (innermost gs) left ts >>= resume n ps gs := by
  match ts with
  | [] | .closing :: ts =>
    rw [operators]
    rfl
  | .op op :: ts =>
    rw [operators]
    split
    · rfl
    · rename_i tight
      have entered := enter_eq_expr (.operator left op :: ps) gs ts (Nat.le_of_succ_le fits)
      rw [← place_cons fits, enter_cons, depth_cons] at entered
      rw [afterOperand_op (reduce_of_threshold_lt (Nat.lt_of_not_le tight) left), entered]
      cases inner : expr n op.rightBinding (depth ps gs + 1) (innermost gs) ts with
      | error failure =>
        rw [threshold_cons, Pending.binding, inner]
        rfl
      | ok right =>
        rw [threshold_cons, Pending.binding, inner]
        have := right.shorter
        have stops : Stops (Pending.operator left op).binding right.rest := expr_stops inner
        have whole := @afterOperand_eq_operators n ps gs (.bin op left right.tree) right.rest
          (by rw [List.length_cons] at fits; omega)
        change resume n (.operator left op :: ps) gs right = _
        rw [resume, afterOperand_complete stops, Pending.complete]
        exact whole.trans (resume_map _ _ ps gs)
  | .num _ :: ts | .var _ :: ts | .opening :: ts | .func _ :: ts =>
    rw [operators.eq_4 _ _ _ _ _ _ _ (by simp) (by simp)]
    rfl
termination_by (ts.length, 0)

end

/-- A descent and the parser have the same result. -/
theorem parse_eq_ofTokens (ts : List (Token α)) :
    parse ts = (Expr.ofTokens ts).mapError Failure.fault := by
  have start : place ts.length ts = 0 := Nat.sub_self _
  have entered := enter_eq_expr [] [] ts (Nat.le_refl _)
  rw [start] at entered
  change _ = (enter 0 [] [] ts).mapError Failure.fault
  rw [entered, parse]
  change _ = expr ts.length 0 0 none ts >>= resume ts.length [] []
  cases read : expr ts.length 0 0 none ts with
  | error failure => rfl
  | ok e =>
    have stops := head?_rest_inside read
    obtain ⟨tree, rest, shorter⟩ := e
    cases rest with
    | nil => rfl
    | cons t rest =>
      obtain none | closing := stops
      · cases none
      · obtain rfl : t = .closing := by simpa using closing
        rfl

/-- No group goes on after its inside. -/
theorem parse_ne_missingClosing (ts : List (Token α)) (index : Nat) :
    parse ts ≠ .error (.missingClosing index) := by
  rw [parse_eq_ofTokens]
  intro missing
  cases parsed : Expr.ofTokens ts with
  | error fault | ok e =>
    rw [parsed] at missing
    cases missing

end Univariate.Descent
