import Univariate.Proofs.Matching
import Univariate.Proofs.Parsing
import Univariate.Proofs.TokenSpans

/-!
# Open groups

The groups that wait are the opening parentheses without a partner: each stands where its index
says, and what has been read since is balanced. So a parenthesis that is reported is one without a
partner, and input that ends in an open group is reported at the innermost one, unless its last
token is a function name.
-/
namespace Univariate

variable {α : Type}

namespace Parser

/-- `Encloses groups ts` takes the tokens apart at the opening parentheses of the groups. -/
inductive Encloses : List (Group α) → List (Token α) → Prop where
  | outside {ts : List (Token α)} : Balanced ts → Encloses [] ts
  | inside {g : Group α} {gs : List (Group α)} {outer inner : List (Token α)} :
      Encloses gs outer → g.index = outer.length → Balanced inner →
      Encloses (g :: gs) (outer ++ .opening :: inner)

namespace Encloses

variable {g : Group α} {gs : List (Group α)} {ts us : List (Token α)}

theorem append (h : Encloses gs ts) (balanced : Balanced us) : Encloses gs (ts ++ us) := by
  cases h with
  | outside h => exact .outside (h.append balanced)
  | inside outer index h =>
    rw [List.append_assoc]
    exact .inside outer index (h.append balanced)

theorem plain (h : Encloses gs ts) {t : Token α} (plain : t.isPlain = true) :
    Encloses gs (ts ++ [t]) := h.append (.plain plain .nil)

theorem opened (h : Encloses gs ts) (index : g.index = ts.length) :
    Encloses (g :: gs) (ts ++ [.opening]) := .inside h index .nil

theorem closed (h : Encloses (g :: gs) ts) : Encloses gs (ts ++ [.closing]) := by
  cases h with
  | inside outer _ balanced => simpa using outer.append (.group balanced .nil)

theorem excess_eq (h : Encloses gs ts) : excess ts = gs.length := by
  induction h with
  | outside balanced => simp [balanced.excess_eq_zero]
  | inside _ _ balanced ih => simp [balanced.excess_eq_zero, ih]

theorem lastUnclosed (h : Encloses (g :: gs) ts) : LastUnclosed ts g.index := by
  cases h with
  | inside outer index balanced =>
    rw [index]
    exact lastUnclosed_of_balanced _ balanced

theorem index_lt (h : Encloses (g :: gs) ts) : g.index < ts.length := by
  cases h with
  | inside _ index _ => simp [index]

end Encloses

theorem Step.encloses {s t : State α} {ts us : List (Token α)} (h : Step ts.length s us t)
    (before : Encloses s.groups ts) : Encloses t.groups (ts ++ us) := by
  cases h with
  | num v | var name | minus room | operator op room => exact before.plain rfl
  | group room => exact before.opened rfl
  | call f room =>
    have outer := before.plain (t := .func f) rfl
    simpa using outer.opened (g := ⟨some f, ts.length + 1, _⟩) (by simp)
  | close => exact before.closed

theorem Reaches.encloses {s : State α} {ts : List (Token α)} (h : Reaches ts s) :
    Encloses s.groups ts := by
  induction h with
  | start => exact .outside .nil
  | step _ step earlier => exact step.encloses earlier

/-! ## Unbalanced parentheses -/

variable {ts us : List (Token α)} {g : Group α} {gs : List (Group α)}

theorem Encloses.not_balanced (h : Encloses (g :: gs) ts) : ¬Balanced ts := by
  intro balanced
  have count := h.excess_eq
  rw [balanced.excess_eq_zero, List.length_cons] at count
  omega

theorem Encloses.balanced (h : Encloses [] ts) : Balanced ts := by
  cases h with
  | outside balanced => exact balanced

/-- What is reported has no partner. Before a closing parenthesis stands a whole sentence. -/
theorem of_unbalanced {k : Nat} {side : Unbalanced}
    (rejected : Expr.ofTokens ts = .error (.unbalanced k side)) :
    k < ts.length ∧ ¬Balanced ts ∧
      (side = .unmatched ∧ ts[k]? = some .closing ∧ (∀ i, ¬Matched ts i k) ∧
          (∃ e n, Sentence .expr (ts.take k) e n) ∨
        side = .unclosed ∧ LastUnclosed ts k) := by
  obtain ⟨read, rest, s, rfl, reached, stops⟩ := exists_stops ts
  rw [rejected] at stops
  have encloses := reached.encloses
  cases stops with
  | unclosed inside =>
    rw [inside] at encloses
    rw [List.append_nil]
    exact ⟨encloses.index_lt, encloses.not_balanced, .inr ⟨rfl, encloses.lastUnclosed⟩⟩
  | refused h rest =>
    cases h with
    | unmatched =>
      have balanced := encloses.balanced
      obtain ⟨n, -, sentence⟩ := (Operand.reduceAll reached.describes).finish
      refine ⟨by simp, balanced.not_closing rest, .inl ⟨rfl, by simp, ?_, ?_⟩⟩
      · exact not_matched_closing balanced rest
      · rw [List.take_left]
        exact ⟨_, n, sentence⟩

/-- An error about parentheses is true: they are not balanced, and the one parenthesis that the
error points at is a closing one without a partner after a whole sentence, or the last opening one
without a partner. -/
theorem unbalanced_exact {ts : List (Token Float)} {fault : Fault} {side : Unbalanced}
    (named : .var "" ∉ ts) (rejected : Expr.ofTokens ts = .error fault)
    (unbalanced : (fault.locate ts).problem = .unbalanced side) :
    ¬Balanced ts ∧ ∃ k, (∀ j, (fault.locate ts).PointsAt ts j ↔ j = k) ∧
      (side = .unmatched ∧ ts[k]? = some .closing ∧ (∀ i, ¬Matched ts i k) ∧
          (∃ e n, Sentence .expr (ts.take k) e n) ∨
        side = .unclosed ∧ LastUnclosed ts k) := by
  cases fault with
  | unexpected k why => cases unbalanced
  | unbalanced k found =>
    obtain rfl : found = side := by cases unbalanced; rfl
    obtain ⟨within, unbalanced, exact⟩ := of_unbalanced rejected
    exact ⟨unbalanced, k,
      Fault.pointsAt_locate_iff (Nat.le_of_lt within) (Token.text_ne_empty named), exact⟩

/-- `(x+1)*(sin(2)` -/
def secondOpen : List (Token Float) :=
  [.opening, .var "x", .op .add, .num 1, .closing, .op .mul, .opening, .func .sin, .opening,
    .num 2, .closing]

theorem unbalanced_exact_secondOpen :
    .var "" ∉ secondOpen ∧ Expr.ofTokens secondOpen = .error (.unbalanced 6 .unclosed) ∧
      ¬Balanced secondOpen ∧ LastUnclosed secondOpen 6 := by
  have named : .var "" ∉ secondOpen := by decide +kernel
  have rejected : Expr.ofTokens secondOpen = .error (.unbalanced 6 .unclosed) := by decide +kernel
  obtain ⟨unbalanced, k, points, other | exact⟩ := unbalanced_exact named rejected rfl
  · cases other.1
  · obtain rfl : 6 = k := (points 6).mp (Fault.pointsAt_locate (by decide))
    exact ⟨named, rejected, unbalanced, exact.2⟩

/-! ## Input that ends too early -/

/-- A function name is only read together with its parenthesis. -/
theorem Reaches.getLast?_ne_func {s : State α} (h : Reaches ts s) (f : Func) :
    ts.getLast? ≠ some (.func f) := by
  cases h with
  | start => simp
  | step _ step => cases step <;> simp

/-- The front of an accepted list, cut off in an open group, is reported at the parenthesis of the
innermost group that is open. At a function name the name itself is reported. -/
theorem unclosed_of_front {ts us : List (Token Float)} {e : Expr Float}
    (accepted : Expr.ofTokens us = .ok e) (initial : ts <+: us)
    (more : ts.countP Token.isClosing < ts.countP Token.isOpening) :
    ((∀ f, ts.getLast? ≠ some (.func f)) →
      ∃ fault k, Expr.ofTokens ts = .error fault ∧
        (fault.locate ts).problem = .unbalanced .unclosed ∧ (fault.locate ts).PointsAt ts k ∧
        LastUnclosed ts k) ∧
      ∀ f, ts.getLast? = some (.func f) →
        Expr.ofTokens ts = .error (.unexpected (ts.length - 1) .bareFunction) := by
  have inside : excess ts ≠ 0 := by
    unfold excess
    omega
  obtain ⟨later, rfl⟩ := initial
  obtain ⟨read, rest, s, rfl, reached, stops⟩ := exists_stops ts
  have encloses := reached.encloses
  generalize result : Expr.ofTokens (read ++ rest) = r at *
  cases stops with
  | accepted ps last =>
    rw [List.append_nil] at inside
    exact absurd encloses.balanced.excess_eq_zero inside
  | missingValue ps =>
    rw [List.append_nil] at inside
    exact absurd encloses.balanced.excess_eq_zero inside
  | unclosed groups =>
    rw [groups] at encloses
    rw [List.append_nil]
    refine ⟨fun _ => ⟨_, _, rfl, rfl, Fault.pointsAt_locate ?_, encloses.lastUnclosed⟩, ?_⟩
    · exact Nat.le_of_lt encloses.index_lt
    · intro f last
      exact absurd last (reached.getLast?_ne_func f)
  | function f ps gs =>
    refine ⟨fun complete => absurd (by simp) (complete f), fun _ _ => ?_⟩
    simp
  | @refused us _ fault h rest =>
    rw [List.append_assoc, List.append_assoc, reached.resume_eq, h.resume_eq] at accepted
    cases accepted

theorem unclosed_of_front_secondOpen :
    Expr.ofTokens (secondOpen ++ [.closing]) = .ok (.bin .mul
        (.bin .add (.var "x") (.num 1)) (.call .sin (.num 2))) ∧
      secondOpen.countP Token.isClosing < secondOpen.countP Token.isOpening ∧
      ∃ fault k, Expr.ofTokens secondOpen = .error fault ∧
        (fault.locate secondOpen).problem = .unbalanced .unclosed ∧
        (fault.locate secondOpen).PointsAt secondOpen k ∧ LastUnclosed secondOpen k := by
  have accepted : Expr.ofTokens (secondOpen ++ [.closing]) = .ok (.bin .mul
      (.bin .add (.var "x") (.num 1)) (.call .sin (.num 2))) := by decide +kernel
  have more : secondOpen.countP Token.isClosing < secondOpen.countP Token.isOpening := by
    decide +kernel
  refine ⟨accepted, more, (unclosed_of_front accepted (List.prefix_append _ _) more).1 ?_⟩
  simp [secondOpen]

/-- `(sin(x))` -/
def callInGroup : List (Token Float) :=
  [.opening, .func .sin, .opening, .var "x", .closing, .closing]

/-- Cut off after its second parenthesis the text is reported at that one. One token less, and the
function name is reported, not the parenthesis that is open. -/
theorem unclosed_of_front_refused :
    Expr.ofTokens callInGroup = .ok (.call .sin (.var "x")) ∧
      Expr.ofTokens (callInGroup.take 3) = .error (.unbalanced 2 .unclosed) ∧
      Expr.ofTokens (callInGroup.take 2) = .error (.unexpected 1 .bareFunction) ∧
      ¬∀ (ts us : List (Token Float)) (e : Expr Float), Expr.ofTokens us = .ok e → ts <+: us →
        ts.countP Token.isClosing < ts.countP Token.isOpening →
        ∃ k, Expr.ofTokens ts = .error (.unbalanced k .unclosed) := by
  have accepted : Expr.ofTokens callInGroup = .ok (.call .sin (.var "x")) := by decide +kernel
  have cut : Expr.ofTokens (callInGroup.take 2) = .error (.unexpected 1 .bareFunction) := by
    decide +kernel
  refine ⟨accepted, by decide +kernel, cut, fun reported => ?_⟩
  obtain ⟨k, unbalanced⟩ :=
    reported (callInGroup.take 2) _ _ accepted (List.take_prefix _ _) (by decide +kernel)
  rw [cut] at unbalanced
  cases unbalanced

end Parser

end Univariate
