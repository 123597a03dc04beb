import Univariate.Proofs.OpenGroups

/-!
# The first token that is wrong

What the parser has read can always be completed to a sentence: what waits gets an operand, and the
open groups are closed. A token is refused whatever comes after it, so no sentence begins with it
and what stands before it. Together an error points at the first token with which the tokens stop
being the beginning of a sentence. Nesting is no matter of the grammar, so the tokens refused for
their depth are another case.
-/
namespace Univariate

variable {α : Type}

/-- Some tokens after these make a sentence of them. -/
def Begins (ts : List (Token α)) : Prop := ∃ rest e n, Sentence .expr (ts ++ rest) e n

theorem Begins.front {ts us : List (Token α)} (h : Begins (ts ++ us)) : Begins ts := by
  obtain ⟨rest, e, n, sentence⟩ := h
  rw [List.append_assoc] at sentence
  exact ⟨us ++ rest, e, n, sentence⟩

/-- At an index of a list, or at its end, the tokens stop being the beginning of a sentence. -/
structure FirstWrong (ts : List (Token α)) (k : Nat) : Prop where
  begins : Begins (ts.take k)
  wrong : k < ts.length → ¬Begins (ts.take (k + 1))
  unfinished : k = ts.length → ∀ e n, ¬Sentence .expr ts e n

namespace Parser

variable {ps : List (Pending α)} {gs : List (Group α)} {ts us : List (Token α)} {fault : Fault}
  {s : State α}

/-! ## What has been read -/

/-- With any operand that what waits leaves in one piece, the tokens can be completed. There is no
limit for the nesting here. -/
theorem Waits.begins {level : Level} {e : Expr α} {n : Nat} (h : Waits ps gs ts)
    (operand : Sentence level us e n) (fits : threshold ps < level.min) : Begins (ts ++ us) := by
  induction h generalizing level us e n with
  | start =>
    have whole : Sentence .expr us e n := operand.lift fits
    exact ⟨[], e, n, by simpa using whole⟩
  | @minus ps gs ts _ ih =>
    have factor : Sentence .factor us e n := operand.lift fits
    simpa using ih factor.minus (threshold_lt_three ps)
  | operator op _ loose left _ ih =>
    have right : Sentence op.right us e n := operand.lift (by rw [op.min_right]; exact fits)
    have whole := left.bin op right
    simpa using ih whole (by rw [op.min_level]; exact loose)
  | @group i ps gs ts _ ih =>
    have inner : Sentence .expr us e n := operand.lift fits
    have closed : Begins (ts ++ [.opening] ++ us ++ [.closing]) := by
      simpa using ih inner.group (Nat.lt_succ_of_lt (threshold_lt_three ps))
    exact closed.front
  | @call f i ps gs ts _ ih =>
    have inner : Sentence .expr us e n := operand.lift fits
    have closed : Begins (ts ++ [.func f, .opening] ++ us ++ [.closing]) := by
      simpa using ih (inner.call f) (Nat.lt_succ_of_lt (threshold_lt_three ps))
    exact closed.front

theorem Reaches.begins_primary {e : Expr α} {n : Nat} (h : Reaches ts (.before ps gs))
    (operand : Sentence .primary us e n) : Begins (ts ++ us) :=
  h.describes.1.begins operand (Nat.lt_succ_of_lt (threshold_lt_three ps))

theorem Reaches.begins (h : Reaches ts s) : Begins ts := by
  cases s with
  | before ps gs => exact (h.begins_primary (.var "x")).front
  | after ps gs e =>
    obtain ⟨waits, operand, _, fits, _⟩ := h.describes
    exact waits.begins operand fits

theorem Reaches.begins_func (h : Reaches ts (.before ps gs)) (f : Func) :
    Begins (ts ++ [.func f]) := by
  have call : Begins (ts ++ [.func f] ++ [.opening, .var "x", .closing]) := by
    simpa using h.begins_primary ((Sentence.var "x").factor.term.expr.call f)
  exact call.front

/-- Only a function name is refused together with the token after it. -/
theorem Refuses.begins (h : Refuses ts.length s us fault) (reached : Reaches ts s) :
    Begins (ts ++ us).dropLast := by
  cases h with
  | operator | closing | missingOperator | unmatched | deepMinus | deepGroup | deepOperator =>
    rw [List.dropLast_concat]
    exact reached.begins
  | bareFunction f | deepCall f =>
    rw [List.append_cons, List.dropLast_concat]
    exact reached.begins_func f

/-! ## What is refused -/

/-- A sentence that is rejected is too deep. -/
theorem not_sentence_of_fault (rejected : Expr.ofTokens ts = .error fault)
    (shallow : ∀ k, fault ≠ .unexpected k .tooDeep) (e : Expr α) (n : Nat) :
    ¬Sentence .expr ts e n := by
  intro sentence
  by_cases fits : n < maxDepth
  · rw [Expr.ofTokens_sentence sentence fits] at rejected
    cases rejected
  · obtain ⟨k, deep⟩ := Expr.ofTokens_tooDeep sentence (Nat.le_of_not_lt fits)
    rw [deep] at rejected
    exact shallow k (Except.error.inj rejected).symm

theorem Refuses.not_begins (h : Refuses ts.length s us fault) (reached : Reaches ts s)
    (shallow : ∀ k, fault ≠ .unexpected k .tooDeep) : ¬Begins (ts ++ us) := by
  rintro ⟨rest, e, n, sentence⟩
  rw [List.append_assoc] at sentence
  refine not_sentence_of_fault ?_ shallow e n sentence
  rw [reached.resume_eq, h.resume_eq]

/-- Refused tokens are wrong at the last of them. -/
theorem Refuses.firstWrong (h : Refuses ts.length s us fault) (reached : Reaches ts s)
    (shallow : ∀ k, fault ≠ .unexpected k .tooDeep) (rest : List (Token α)) :
    FirstWrong (ts ++ (us ++ rest)) fault.index := by
  have length : (ts ++ us).length = fault.index + 1 := by rw [List.length_append, h.index_eq]
  rw [← List.append_assoc]
  constructor
  case begins =>
    rw [List.take_append_of_le_length (by omega)]
    have read := h.begins reached
    rwa [List.dropLast_eq_take, length, Nat.add_sub_cancel] at read
  case wrong =>
    intro _
    rw [List.take_left' length]
    exact h.not_begins reached shallow
  case unfinished =>
    intro finished
    rw [List.length_append, length] at finished
    omega

/-- An error that is none of the depth, and none at the end about a function or an open group, is at
the first wrong token. -/
theorem firstWrong_of_fault (rejected : Expr.ofTokens ts = .error fault)
    (shallow : ∀ k, fault ≠ .unexpected k .tooDeep)
    (inText : ∀ k, fault ≠ .unbalanced k .unclosed)
    (complete : ∀ k f, fault = .unexpected k .bareFunction → ts.getLast? ≠ some (.func f)) :
    fault.index ≤ ts.length ∧ FirstWrong ts fault.index := by
  obtain ⟨read, rest, s, rfl, reached, stops⟩ := exists_stops ts
  have wrong := not_sentence_of_fault rejected shallow
  rw [rejected] at stops
  cases stops with
  | missingValue ps =>
    rw [List.append_nil] at *
    refine ⟨Nat.le_refl _, ?_, fun less => absurd less (Nat.lt_irrefl _), fun _ => wrong⟩
    exact (List.take_length (l := read)).symm ▸ reached.begins
  | unclosed inside => exact absurd rfl (inText _)
  | function f ps gs => exact absurd (by simp) (complete _ f rfl)
  | refused h rest =>
    refine ⟨?_, h.firstWrong reached shallow rest⟩
    have index := h.index_eq
    rw [List.length_append, List.length_append]
    omega

/-- An unexpected token or an unbalanced closing parenthesis is the first token with which the
tokens stop being the beginning of a sentence. -/
theorem fault_firstWrong {ts : List (Token Float)} {fault : Fault} (named : .var "" ∉ ts)
    (rejected : Expr.ofTokens ts = .error fault)
    (kind : (∃ found why, (fault.locate ts).problem = .unexpected found why ∧ why ≠ .tooDeep ∧
        ∀ f, ts.getLast? ≠ some (.func f)) ∨
      ∃ side j, (fault.locate ts).problem = .unbalanced side ∧ (fault.locate ts).PointsAt ts j ∧
        ts[j]? = some .closing) :
    ∃ k, (∀ j, (fault.locate ts).PointsAt ts j ↔ j = k) ∧ FirstWrong ts k := by
  have written := Token.text_ne_empty named
  suffices first : fault.index ≤ ts.length ∧ FirstWrong ts fault.index from
    ⟨fault.index, Fault.pointsAt_locate_iff first.1 written, first.2⟩
  obtain ⟨found, why, problem, shallow, complete⟩ | ⟨side, j, problem, points, closing⟩ := kind
  · cases fault with
    | unbalanced k side => cases problem
    | unexpected k cause =>
      cases problem
      refine firstWrong_of_fault rejected (fun _ deep => ?_) (by simp) fun _ f _ => complete f
      cases deep
      exact shallow rfl
  · cases fault with
    | unexpected k cause => cases problem
    | unbalanced k cause =>
      obtain ⟨within, _, ⟨rfl, _⟩ | ⟨rfl, last⟩⟩ := of_unbalanced rejected
      · exact firstWrong_of_fault rejected (by simp) (by simp) (by simp)
      · have le : (Fault.unbalanced k .unclosed).index ≤ ts.length := Nat.le_of_lt within
        obtain rfl : j = k := (Fault.pointsAt_locate_iff le written j).mp points
        rw [last.opening] at closing
        cases closing

/-- `(x+*2)` -/
def doubledOperator : List (Token Float) :=
  [.opening, .var "x", .op .add, .op .mul, .num 2, .closing]

theorem fault_firstWrong_doubledOperator :
    .var "" ∉ doubledOperator ∧
      Expr.ofTokens doubledOperator = .error (.unexpected 3 (.operator .mul)) ∧
      FirstWrong doubledOperator 3 := by
  have named : .var "" ∉ doubledOperator := by decide +kernel
  have rejected : Expr.ofTokens doubledOperator = .error (.unexpected 3 (.operator .mul)) := by
    decide +kernel
  obtain ⟨k, points, wrong⟩ := fault_firstWrong named rejected
    (.inl ⟨_, _, rfl, by simp, by simp [doubledOperator]⟩)
  obtain rfl : 3 = k := (points 3).mp (Fault.pointsAt_locate (by decide))
  exact ⟨named, rejected, wrong⟩

end Parser

end Univariate
