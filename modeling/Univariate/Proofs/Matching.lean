import Mathlib.Data.List.Basic
import Univariate.Token.Basic

/-!
# Matching parentheses

Two parentheses match when what stands between them is balanced. A balanced list opens as many
groups as it closes, and no part at its front closes more than it opens; so a parenthesis is left
without a partner where one of these counts is off, and every opening one inside a balanced list has
its partner there.
-/
namespace Univariate

variable {α : Type}

namespace Token

def isOpening : Token α → Bool
  | opening => true
  | _ => false

def isClosing : Token α → Bool
  | closing => true
  | _ => false

/-- Neither of the two parentheses. -/
def isPlain (t : Token α) : Bool := !t.isOpening && !t.isClosing

end Token

inductive Balanced : List (Token α) → Prop where
  | nil : Balanced []
  | plain {t : Token α} {ts : List (Token α)} (plain : t.isPlain = true) :
      Balanced ts → Balanced (t :: ts)
  | group {ts us : List (Token α)} :
      Balanced ts → Balanced us → Balanced (.opening :: (ts ++ .closing :: us))

/-- The parentheses at two indices belong together. -/
def Matched (ts : List (Token α)) (i j : Nat) : Prop :=
  ∃ front inner back, ts = front ++ .opening :: (inner ++ .closing :: back) ∧ Balanced inner ∧
    i = front.length ∧ j = front.length + 1 + inner.length

/-- An opening parenthesis without a partner after which all others have theirs. -/
structure LastUnclosed (ts : List (Token α)) (k : Nat) : Prop where
  opening : ts[k]? = some .opening
  unclosed : ∀ j, ¬Matched ts k j
  last : ∀ i, k < i → ts[i]? = some .opening → ∃ j, Matched ts i j

/-- How many more groups are opened than closed. -/
def excess (ts : List (Token α)) : Int := ts.countP Token.isOpening - ts.countP Token.isClosing

@[simp] theorem excess_nil : excess ([] : List (Token α)) = 0 := rfl

@[simp] theorem excess_opening (ts : List (Token α)) : excess (.opening :: ts) = excess ts + 1 := by
  simp [excess, List.countP_cons, Token.isOpening, Token.isClosing]
  omega

@[simp] theorem excess_closing (ts : List (Token α)) : excess (.closing :: ts) = excess ts - 1 := by
  simp [excess, List.countP_cons, Token.isOpening, Token.isClosing]
  omega

theorem excess_plain {t : Token α} (plain : t.isPlain = true) (ts : List (Token α)) :
    excess (t :: ts) = excess ts := by
  cases t with
  | opening | closing => cases plain
  | num _ | op _ | var _ | func _ => simp [excess, Token.isOpening, Token.isClosing]

@[simp] theorem excess_append (ts us : List (Token α)) :
    excess (ts ++ us) = excess ts + excess us := by
  simp only [excess, List.countP_append]
  omega

namespace Balanced

variable {ts us front : List (Token α)}

theorem append (h : Balanced ts) (h' : Balanced us) : Balanced (ts ++ us) := by
  induction h with
  | nil => exact h'
  | plain plain _ ih => exact .plain plain ih
  | group inner _ _ ih => simpa using Balanced.group inner ih

theorem excess_eq_zero (h : Balanced ts) : excess ts = 0 := by
  induction h with
  | nil => rfl
  | plain plain _ ih => rw [excess_plain plain, ih]
  | group _ _ inner outer => simp [inner, outer]

/-- No part at the front closes more groups than it opens. -/
theorem excess_nonneg (h : Balanced ts) (initial : front <+: ts) : 0 ≤ excess front := by
  induction h generalizing front with
  | nil =>
    obtain rfl := List.prefix_nil.mp initial
    exact Int.le_refl 0
  | plain plain _ ih =>
    obtain rfl | ⟨front, rfl, next⟩ := List.prefix_cons_iff.mp initial
    · exact Int.le_refl 0
    · rw [excess_plain plain]
      exact ih next
  | @group ts us inner _ ihInner ihOuter =>
    obtain rfl | ⟨front, rfl, next⟩ := List.prefix_cons_iff.mp initial
    · exact Int.le_refl 0
    rw [excess_opening]
    obtain within | ⟨after, rfl⟩ := List.prefix_or_prefix_of_prefix next (List.prefix_append ts _)
    · have := ihInner within
      omega
    · obtain rfl | ⟨after, rfl, later⟩ :=
        List.prefix_cons_iff.mp ((List.prefix_append_right_inj ts).mp next)
      · simp [inner.excess_eq_zero]
      · simpa [inner.excess_eq_zero] using ihOuter later

theorem not_closing (h : Balanced front) (rest : List (Token α)) :
    ¬Balanced (front ++ .closing :: rest) := by
  intro balanced
  have initial : front ++ [.closing] <+: front ++ .closing :: rest := ⟨rest, by simp⟩
  have nonneg := balanced.excess_nonneg initial
  simp [h.excess_eq_zero] at nonneg

/-- An opening parenthesis inside has its partner inside. -/
theorem exists_closing {rest : List (Token α)} (h : Balanced ts)
    (split : ts = front ++ .opening :: rest) :
    ∃ inner back, rest = inner ++ .closing :: back ∧ Balanced inner := by
  induction h generalizing front rest with
  | nil => simp at split
  | plain plain _ ih =>
    obtain ⟨rfl, same⟩ | ⟨front, rfl, next⟩ := List.cons_eq_append_iff.mp split
    · cases same
      cases plain
    · exact ih next
  | @group ts us inner _ ihInner ihOuter =>
    obtain ⟨rfl, same⟩ | ⟨front, rfl, next⟩ := List.cons_eq_append_iff.mp split
    · cases same
      exact ⟨ts, us, rfl, inner⟩
    obtain ⟨between, rfl, after⟩ | ⟨between, rfl, after⟩ := List.append_eq_append_iff.mp next
    · obtain ⟨rfl, same⟩ | ⟨between, rfl, later⟩ := List.cons_eq_append_iff.mp after
      · cases same
      · exact ihOuter later
    · obtain ⟨rfl, same⟩ | ⟨between, rfl, later⟩ := List.cons_eq_append_iff.mp after
      · cases same
      · obtain ⟨body, back, rfl, balanced⟩ := ihInner rfl
        exact ⟨body, back ++ .closing :: us, by simp [later], balanced⟩

end Balanced

variable {front inner : List (Token α)}

/-- A closing parenthesis after a balanced part has no partner. -/
theorem not_matched_closing (h : Balanced front) (rest : List (Token α)) (i : Nat) :
    ¬Matched (front ++ .closing :: rest) i front.length := by
  rintro ⟨outer, body, back, split, balanced, -, index⟩
  rw [← List.cons_append, ← List.append_assoc] at split
  obtain ⟨rfl, -⟩ := List.append_inj split (by simp; omega)
  have nonneg := h.excess_nonneg (List.prefix_append outer _)
  have zero := h.excess_eq_zero
  simp [balanced.excess_eq_zero] at zero
  omega

/-- The opening parenthesis before a balanced part has no partner, and all others there have one. -/
theorem lastUnclosed_of_balanced (front : List (Token α)) (h : Balanced inner) :
    LastUnclosed (front ++ .opening :: inner) front.length := by
  constructor
  case opening => simp
  case unclosed =>
    rintro j ⟨outer, body, back, split, balanced, index, -⟩
    obtain ⟨-, same⟩ := List.append_inj split index
    obtain rfl := (List.cons_eq_cons.mp same).2
    exact balanced.not_closing back h
  case last =>
    intro i after found
    obtain ⟨k, rfl⟩ := Nat.exists_eq_add_of_lt after
    rw [Nat.add_assoc, List.getElem?_append_right (Nat.le_add_right _ _), Nat.add_sub_cancel_left,
      List.getElem?_cons_succ] at found
    obtain ⟨within, same⟩ := List.getElem?_eq_some_iff.mp found
    have split : inner = inner.take k ++ .opening :: inner.drop (k + 1) := by
      rw [← same, ← List.drop_eq_getElem_cons within, List.take_append_drop]
    obtain ⟨body, back, tail, balanced⟩ := h.exists_closing split
    refine ⟨_, front ++ .opening :: inner.take k, body, back, ?_, balanced, ?_, rfl⟩
    · rw [← tail, List.append_assoc, List.cons_append, ← split]
    · rw [List.length_append, List.length_cons, List.length_take_of_le (Nat.le_of_lt within),
        Nat.add_assoc]

end Univariate
