import Univariate.Expr.Parser

/-!
# The steps of the parser

Read as a machine, the parser goes from state to state over one token at a time, or over two where a
function has its parenthesis. A state and the tokens ahead of it are all that the rest of the run
depends on. So every list of tokens is read up to its end, up to a function name at its end, or up
to tokens that the state refuses, and it is refused there whatever comes after them.
-/
namespace Univariate.Parser

variable {α : Type}

inductive State (α : Type) where
  | before (pending : List (Pending α)) (groups : List (Group α))
  | after (pending : List (Pending α)) (groups : List (Group α)) (operand : Expr α)

namespace State

def groups : State α → List (Group α)
  | before _ groups | after _ groups _ => groups

@[simp] theorem groups_before (ps : List (Pending α)) (gs : List (Group α)) :
    (before ps gs).groups = gs := rfl

@[simp] theorem groups_after (ps : List (Pending α)) (gs : List (Group α)) (e : Expr α) :
    (after ps gs e).groups = gs := rfl

/-- Going on from a state, with the index of the first token ahead. -/
def resume (index : Nat) (ts : List (Token α)) : State α → Except Fault (Expr α)
  | before pending groups => beforeOperand index pending groups ts
  | after pending groups operand => afterOperand index pending groups operand ts

end State

/-- `Step index s ts t` goes over the tokens from a state to the next one. -/
inductive Step (index : Nat) : State α → List (Token α) → State α → Prop where
  | num (v : α) {ps : List (Pending α)} {gs : List (Group α)} :
      Step index (.before ps gs) [.num v] (.after ps gs (.num v))
  | var (name : String) {ps : List (Pending α)} {gs : List (Group α)} :
      Step index (.before ps gs) [.var name] (.after ps gs (.var name))
  | minus {ps : List (Pending α)} {gs : List (Group α)} (room : hasRoom ps gs = true) :
      Step index (.before ps gs) [.op .sub] (.before (.minus :: ps) gs)
  | group {ps : List (Pending α)} {gs : List (Group α)} (room : hasRoom ps gs = true) :
      Step index (.before ps gs) [.opening] (.before [] (⟨none, index, ps⟩ :: gs))
  | call (f : Func) {ps : List (Pending α)} {gs : List (Group α)} (room : hasRoom ps gs = true) :
      Step index (.before ps gs) [.func f, .opening]
        (.before [] (⟨some f, index + 1, ps⟩ :: gs))
  | operator (op : Op) {ps : List (Pending α)} {gs : List (Group α)} {e : Expr α}
      (room : hasRoom (reduce op.binding ps e).1 gs = true) :
      Step index (.after ps gs e) [.op op]
        (.before (.operator (reduce op.binding ps e).2 op :: (reduce op.binding ps e).1) gs)
  | close {ps : List (Pending α)} {g : Group α} {gs : List (Group α)} {e : Expr α} :
      Step index (.after ps (g :: gs) e) [.closing]
        (.after g.outer gs (g.complete (reduceAll ps e)))

/-- `Refuses index s ts fault` finds a fault in the tokens ahead. -/
inductive Refuses (index : Nat) : State α → List (Token α) → Fault → Prop where
  | operator {op : Op} {ps : List (Pending α)} {gs : List (Group α)} (other : op ≠ .sub) :
      Refuses index (.before ps gs) [.op op] (.unexpected index (.operator op))
  | closing {ps : List (Pending α)} {gs : List (Group α)} :
      Refuses index (.before ps gs) [.closing] (.unexpected index .closing)
  | bareFunction (f : Func) {t : Token α} {ps : List (Pending α)} {gs : List (Group α)}
      (other : t ≠ .opening) :
      Refuses index (.before ps gs) [.func f, t] (.unexpected (index + 1) .bareFunction)
  | missingOperator {t : Token α} {ps : List (Pending α)} {gs : List (Group α)} {e : Expr α}
      (noOperator : ∀ op, t ≠ .op op) (noClosing : t ≠ .closing) :
      Refuses index (.after ps gs e) [t] (.unexpected index .missingOperator)
  | unmatched {ps : List (Pending α)} {e : Expr α} :
      Refuses index (.after ps [] e) [.closing] (.unbalanced index .unmatched)
  | deepMinus {ps : List (Pending α)} {gs : List (Group α)} (full : hasRoom ps gs = false) :
      Refuses index (.before ps gs) [.op .sub] (.unexpected index .tooDeep)
  | deepGroup {ps : List (Pending α)} {gs : List (Group α)} (full : hasRoom ps gs = false) :
      Refuses index (.before ps gs) [.opening] (.unexpected index .tooDeep)
  | deepCall (f : Func) {ps : List (Pending α)} {gs : List (Group α)}
      (full : hasRoom ps gs = false) :
      Refuses index (.before ps gs) [.func f, .opening] (.unexpected (index + 1) .tooDeep)
  | deepOperator {op : Op} {ps : List (Pending α)} {gs : List (Group α)} {e : Expr α}
      (full : hasRoom (reduce op.binding ps e).1 gs = false) :
      Refuses index (.after ps gs e) [.op op] (.unexpected index .tooDeep)

/-- `Stops index s ts result` is where a run has its result: at the end of the tokens, at a function
name there, or at tokens that are refused. -/
inductive Stops (index : Nat) :
    State α → List (Token α) → Except Fault (Expr α) → Prop where
  | accepted (ps : List (Pending α)) (e : Expr α) :
      Stops index (.after ps [] e) [] (.ok (reduceAll ps e))
  | missingValue (ps : List (Pending α)) :
      Stops index (.before ps []) [] (.error (.unexpected index .missingValue))
  | unclosed {s : State α} {g : Group α} {gs : List (Group α)} (inside : s.groups = g :: gs) :
      Stops index s [] (.error (.unbalanced g.index .unclosed))
  | function (f : Func) (ps : List (Pending α)) (gs : List (Group α)) :
      Stops index (.before ps gs) [.func f] (.error (.unexpected index .bareFunction))
  | refused {s : State α} {us : List (Token α)} {fault : Fault} (h : Refuses index s us fault)
      (rest : List (Token α)) : Stops index s (us ++ rest) (.error fault)

variable {i : Nat} {s t : State α} {ts us : List (Token α)} {fault : Fault}

theorem Step.resume_eq (h : Step i s us t) (rest : List (Token α)) :
    s.resume i (us ++ rest) = t.resume (i + us.length) rest := by
  cases h with
  | num v | var name | close => rfl
  | minus room | group room | call f room | operator op room =>
    simp [State.resume, beforeOperand, afterOperand, room]

theorem Refuses.resume_eq (h : Refuses i s us fault) (rest : List (Token α)) :
    s.resume i (us ++ rest) = .error fault := by
  cases h with
  | closing | unmatched => rfl
  | @operator op _ _ other =>
    cases op with
    | sub => exact absurd rfl other
    | add | mul | div | pow => rfl
  | @bareFunction f t _ _ other =>
    cases t with
    | opening => exact absurd rfl other
    | num _ | op _ | closing | var _ | func _ => rfl
  | @missingOperator t _ _ _ noOperator noClosing =>
    cases t with
    | op o => exact absurd rfl (noOperator o)
    | closing => exact absurd rfl noClosing
    | num _ | opening | var _ | func _ => rfl
  | deepMinus full | deepGroup full | deepCall f full | deepOperator full =>
    simp [State.resume, beforeOperand, afterOperand, full]

/-- The fault is at the last of the refused tokens. -/
theorem Refuses.index_eq (h : Refuses i s us fault) : fault.index + 1 = i + us.length := by
  cases h <;> rfl

theorem Stops.resume_eq {result : Except Fault (Expr α)} (h : Stops i s ts result) :
    s.resume i ts = result := by
  cases h with
  | accepted ps e | missingValue ps | function f ps gs => rfl
  | unclosed inside =>
    cases s with
    | before ps gs => cases inside; rfl
    | after ps gs e => cases inside; rfl
  | refused h rest => exact h.resume_eq rest

theorem stops_or_step (i : Nat) (s : State α) (ts : List (Token α)) :
    (∃ result, Stops i s ts result) ∨
      ∃ us rest t, ts = us ++ rest ∧ rest.length < ts.length ∧ Step i s us t := by
  have refused {us : List (Token α)} {fault : Fault} (h : Refuses i s us fault)
      (rest : List (Token α)) : ∃ result, Stops i s (us ++ rest) result := ⟨_, .refused h rest⟩
  cases s with
  | before ps gs =>
    match ts with
    | [] =>
      cases gs with
      | nil => exact .inl ⟨_, .missingValue ps⟩
      | cons g gs => exact .inl ⟨_, .unclosed rfl⟩
    | .num v :: ts => exact .inr ⟨[.num v], ts, _, rfl, by simp, .num v⟩
    | .var name :: ts => exact .inr ⟨[.var name], ts, _, rfl, by simp, .var name⟩
    | .op o :: ts =>
      by_cases sub : o = .sub
      · subst sub
        cases room : hasRoom ps gs with
        | true => exact .inr ⟨[.op .sub], ts, _, rfl, by simp, .minus room⟩
        | false => exact .inl (refused (.deepMinus room) ts)
      · exact .inl (refused (.operator sub) ts)
    | .opening :: ts =>
      cases room : hasRoom ps gs with
      | true => exact .inr ⟨[.opening], ts, _, rfl, by simp, .group room⟩
      | false => exact .inl (refused (.deepGroup room) ts)
    | .closing :: ts => exact .inl (refused .closing ts)
    | [.func f] => exact .inl ⟨_, .function f ps gs⟩
    | .func f :: u :: ts =>
      by_cases opening : u = .opening
      · subst opening
        cases room : hasRoom ps gs with
        | true =>
          have shorter : ts.length < (.func f :: .opening :: ts).length :=
            Nat.lt_add_right 1 (Nat.lt_succ_self _)
          exact .inr ⟨[.func f, .opening], ts, _, rfl, shorter, .call f room⟩
        | false => exact .inl (refused (.deepCall f room) ts)
      · exact .inl (refused (.bareFunction f opening) ts)
  | after ps gs e =>
    match ts with
    | [] =>
      cases gs with
      | nil => exact .inl ⟨_, .accepted ps e⟩
      | cons g gs => exact .inl ⟨_, .unclosed rfl⟩
    | .op o :: ts =>
      cases room : hasRoom (reduce o.binding ps e).1 gs with
      | true => exact .inr ⟨[.op o], ts, _, rfl, by simp, .operator o room⟩
      | false => exact .inl (refused (.deepOperator room) ts)
    | .closing :: ts =>
      cases gs with
      | nil => exact .inl (refused .unmatched ts)
      | cons g gs => exact .inr ⟨[.closing], ts, _, rfl, by simp, .close⟩
    | .num _ :: ts | .var _ :: ts | .opening :: ts | .func _ :: ts =>
      exact .inl (refused (.missingOperator (by simp) (by simp)) ts)

/-- `Reaches ts s` is the state in which the parser is after the tokens. -/
inductive Reaches : List (Token α) → State α → Prop where
  | start : Reaches [] (.before [] [])
  | step {ts us : List (Token α)} {s t : State α} :
      Reaches ts s → Step ts.length s us t → Reaches (ts ++ us) t

theorem Reaches.resume_eq (h : Reaches ts s) (rest : List (Token α)) :
    Expr.ofTokens (ts ++ rest) = s.resume ts.length rest := by
  induction h generalizing rest with
  | start => rfl
  | @step ts us s t _ step earlier =>
    rw [List.append_assoc, earlier, step.resume_eq, List.length_append]

theorem Reaches.exists_stops {front : List (Token α)} {s : State α} (h : Reaches front s)
    (ahead : List (Token α)) :
    ∃ read rest t result, front ++ ahead = read ++ rest ∧ Reaches read t ∧
      Stops read.length t rest result := by
  obtain ⟨result, stops⟩ | ⟨us, rest, t, split, shorter, step⟩ :=
    stops_or_step front.length s ahead
  · exact ⟨front, ahead, s, result, rfl, h, stops⟩
  · rw [split, ← List.append_assoc]
    exact (h.step step).exists_stops rest
termination_by ahead.length

/-- Every list of tokens is read up to where the parser has its result. -/
theorem exists_stops (ts : List (Token α)) :
    ∃ read rest s, ts = read ++ rest ∧ Reaches read s ∧
      Stops read.length s rest (Expr.ofTokens ts) := by
  obtain ⟨read, rest, s, result, split, reached, stops⟩ := Reaches.start.exists_stops ts
  rw [List.nil_append] at split
  refine ⟨read, rest, s, split, reached, ?_⟩
  rw [split, reached.resume_eq, stops.resume_eq]
  exact stops

end Univariate.Parser
