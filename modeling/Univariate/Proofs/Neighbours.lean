import Mathlib.Data.List.Chain
import Univariate.Proofs.Grammar

/-!
# Neighbouring tokens

Which token may follow which can be said without the tree: an operand ends before an operator or a
closing parenthesis, after an operator an operand starts, and a function has its parenthesis. In a
sentence all neighbours are of this kind, and no product is implied between two such tokens. What
is written out as a product was between an operand's end and an operand's start.
-/
namespace Univariate

variable {α : Type}

namespace Token

def endsOperand : Token α → Bool
  | num _ | var _ | closing => true
  | op _ | opening | func _ => false

def startsOperand : Token α → Bool
  | num _ | var _ | func _ | opening => true
  | op o => o == .sub
  | closing => false

/-- Whether the second token may stand right after the first one in a sentence. -/
def canFollow : Token α → Token α → Bool
  | num _, op _ | var _, op _ | closing, op _ => true
  | num _, closing | var _, closing | closing, closing => true
  | op _, u | opening, u => u.startsOperand
  | func _, opening => true
  | _, _ => false

theorem canFollow_op {t : Token α} (h : t.endsOperand) (o : Op) : canFollow t (op o) := by
  cases t <;> first | rfl | cases h

theorem canFollow_closing {t : Token α} (h : t.endsOperand) : canFollow t closing := by
  cases t <;> first | rfl | cases h

/-- A token that stands next to another one, up to a product that is not written. -/
def Beside (t u : Token α) : Prop := canFollow t u ∨ Lexer.isProduct t u

theorem not_isProduct {t u : Token α} (h : canFollow t u) : Lexer.isProduct t u = false := by
  cases t <;> cases u <;> first | rfl | cases h

theorem Beside.opening_of_func {f : Func} {u : Token α} (h : Beside (func f) u) :
    u = opening := by
  cases u <;> simp_all [Beside, canFollow, Lexer.isProduct]

theorem Beside.not_num {v w : α} : ¬ Beside (num v) (num w) := by
  simp [Beside, canFollow, Lexer.isProduct]

/-- What a written product stands between is an implied product without it, unless both are
numbers or a minus follows. -/
theorem isProduct_of_beside {t u : Token α} (left : Beside t (op .mul)) (right : Beside (op .mul) u)
    (words : ¬ ∃ v w, t = num v ∧ u = num w) (minus : u ≠ op .sub) : Lexer.isProduct t u := by
  cases t <;> cases u <;>
    simp_all [Beside, canFollow, Lexer.isProduct, startsOperand]

end Token

open Token

/-- Neighbours as a text has them, up to an end where an operand ends. -/
structure Linked (ts : List (Token α)) : Prop where
  chain : ts.IsChain Beside
  ends : ∀ t ∈ ts.getLast?, t.endsOperand

namespace Linked

variable {t u : Token α} {ts : List (Token α)}

theorem beside (h : Linked (t :: u :: ts)) : Beside t u := (List.isChain_cons_cons.mp h.chain).1

theorem tail (h : Linked (t :: u :: ts)) : Linked (u :: ts) :=
  ⟨(List.isChain_cons_cons.mp h.chain).2, fun x hx => h.ends x (by simpa using hx)⟩

end Linked

/-- Tokens that begin and end as an operand does and are neighbours as in a sentence. -/
structure Phrase (ts : List (Token α)) : Prop where
  chain : ts.IsChain (canFollow · ·)
  starts : ∃ t ∈ ts.head?, t.startsOperand
  ends : ∃ t ∈ ts.getLast?, t.endsOperand

namespace Phrase

variable {ts us : List (Token α)}

theorem single {t : Token α} (starts : t.startsOperand) (ends : t.endsOperand) : Phrase [t] :=
  ⟨.singleton t, ⟨t, rfl, starts⟩, ⟨t, rfl, ends⟩⟩

/-- A token in front, where any operand may follow. -/
theorem cons {t : Token α} (h : Phrase ts) (starts : t.startsOperand)
    (next : ∀ u ∈ ts.head?, u.startsOperand → canFollow t u) : Phrase (t :: ts) := by
  obtain ⟨u, head, first⟩ := h.starts
  obtain ⟨w, last, final⟩ := h.ends
  constructor
  · refine h.chain.cons ?_
    intro x hx
    obtain rfl := Option.mem_unique head hx
    exact next u head first
  · exact ⟨t, rfl, starts⟩
  · refine ⟨w, ?_, final⟩
    rw [List.getLast?_cons, Option.mem_def.mp last]
    rfl

theorem opened (h : Phrase ts) : Phrase (.opening :: ts) :=
  h.cons rfl fun _ _ starts => starts

theorem closed (h : Phrase ts) : Phrase (ts ++ [.closing]) := by
  obtain ⟨u, head, first⟩ := h.starts
  obtain ⟨w, last, final⟩ := h.ends
  constructor
  · refine h.chain.append (.singleton _) ?_
    intro x hx y hy
    obtain rfl := Option.mem_unique last hx
    obtain rfl : Token.closing = y := by simpa using hy
    exact canFollow_closing final
  · exact ⟨u, List.mem_head?_append_of_mem_head? head, first⟩
  · exact ⟨.closing, by simp, rfl⟩

theorem bin (left : Phrase ts) (o : Op) (right : Phrase us) : Phrase (ts ++ .op o :: us) := by
  obtain ⟨u, head, first⟩ := left.starts
  obtain ⟨w, last, final⟩ := left.ends
  obtain ⟨x, head', first'⟩ := right.starts
  obtain ⟨y, last', final'⟩ := right.ends
  constructor
  · refine left.chain.append (right.chain.cons ?_) ?_
    · intro z hz
      obtain rfl := Option.mem_unique head' hz
      exact first'
    · intro z hz z' hz'
      obtain rfl := Option.mem_unique last hz
      obtain rfl : Token.op o = z' := by simpa using hz'
      exact canFollow_op final o
  · exact ⟨u, List.mem_head?_append_of_mem_head? head, first⟩
  · refine ⟨y, ?_, final'⟩
    rw [List.getLast?_append, List.getLast?_cons, Option.mem_def.mp last']
    rfl

end Phrase

/-- Every sentence is a phrase. -/
theorem Sentence.phrase {level : Level} {ts : List (Token α)} {e : Expr α} {n : Nat}
    (sentence : Sentence level ts e n) : Phrase ts := by
  induction sentence with
  | num v | var name => exact .single rfl rfl
  | group _ ih => exact ih.opened.closed
  | call f _ ih =>
    refine (ih.opened.cons rfl ?_).closed
    intro u hu _
    obtain rfl : Token.opening = u := by simpa using hu
    rfl
  | minus _ ih => exact ih.cons rfl fun _ _ starts => starts
  | bin op _ _ left right => exact left.bin op right
  | factor _ ih | term _ ih | expr _ ih => exact ih

namespace Lexer

theorem isProduct_op_left (op : Op) (u : Token α) : isProduct (.op op) u = false := by
  cases u <;> rfl

theorem isProduct_op_right (t : Token α) (op : Op) : isProduct t (.op op) = false := by
  cases t <;> rfl

theorem insertProducts_of_isChain {ts : List (Token α)}
    (chain : ts.IsChain (isProduct · · = false)) : insertProducts ts = ts := by
  fun_induction insertProducts ts with
  | case1 t u ts product _ =>
    rw [(List.isChain_cons_cons.mp chain).1] at product
    cases product
  | case2 t u ts _ ih => rw [ih (List.isChain_cons_cons.mp chain).2]
  | case3 => rfl

theorem insertProducts_eq_self {ts : List (Token α)} (chain : ts.IsChain (canFollow · ·)) :
    insertProducts ts = ts :=
  insertProducts_of_isChain (chain.imp fun _ _ => not_isProduct)

/-- A sentence has no implied products. -/
theorem insertProducts_sentence {level : Level} {ts : List (Token α)} {e : Expr α} {n : Nat}
    (sentence : Sentence level ts e n) : insertProducts ts = ts :=
  insertProducts_eq_self sentence.phrase.chain

theorem head?_insertProducts (ts : List (Token α)) : (insertProducts ts).head? = ts.head? := by
  fun_induction insertProducts ts <;> rfl

theorem getLast?_insertProducts (ts : List (Token α)) :
    (insertProducts ts).getLast? = ts.getLast? := by
  fun_induction insertProducts ts with
  | case1 t u ts _ ih => simp [List.getLast?_cons, ih]
  | case2 t u ts _ ih => simp [List.getLast?_cons, ih]
  | case3 => rfl

/-- What holds on both sides of every operator, and of neighbours that are no product, holds when
the products are written out. -/
theorem isChain_insertProducts {R : Token α → Token α → Prop} (left : ∀ t o, R t (op o))
    (right : ∀ o u, R (op o) u) {ts : List (Token α)}
    (chain : ts.IsChain fun t u => isProduct t u = false → R t u) :
    (insertProducts ts).IsChain R := by
  fun_induction insertProducts ts with
  | case1 t u ts _ ih =>
    exact .cons_cons (left t .mul) ((ih chain.tail).cons fun x _ => right .mul x)
  | case2 t u ts product ih =>
    refine (ih chain.tail).cons fun x hx => ?_
    rw [head?_insertProducts] at hx
    cases hx
    exact (List.isChain_cons_cons.mp chain).1 (Bool.not_eq_true _ ▸ product)
  | case3 ts short =>
    cases ts with
    | nil => exact .nil
    | cons t ts =>
      cases ts with
      | nil => exact .singleton t
      | cons u ts => exact absurd rfl (short t u ts)

/-- Written out, there are no more products. -/
theorem insertProducts_insertProducts (ts : List (Token α)) :
    insertProducts (insertProducts ts) = insertProducts ts := by
  refine insertProducts_of_isChain (isChain_insertProducts isProduct_op_right isProduct_op_left ?_)
  exact (List.pairwise_of_forall fun _ _ product => product).isChain

/-- The neighbours that a text has, before its implied products are written out. -/
theorem beside_of_insertProducts {ts : List (Token α)}
    (chain : (insertProducts ts).IsChain (canFollow · ·)) : ts.IsChain Beside := by
  fun_induction insertProducts ts with
  | case1 t u ts product ih =>
    have rest := (List.isChain_cons_cons.mp chain).2
    exact .cons_cons (.inr product) (ih rest.tail)
  | case2 t u ts _ ih =>
    have next := chain.rel_head? (y := u) (by rw [head?_insertProducts]; rfl)
    exact .cons_cons (.inl next) (ih chain.tail)
  | case3 ts short =>
    cases ts with
    | nil => exact .nil
    | cons t ts =>
      cases ts with
      | nil => exact .singleton t
      | cons u ts => exact absurd rfl (short t u ts)

theorem linked_of_insertProducts {ts : List (Token α)} (phrase : Phrase (insertProducts ts)) :
    Linked ts := by
  obtain ⟨u, last, final⟩ := phrase.ends
  rw [getLast?_insertProducts] at last
  constructor
  · exact beside_of_insertProducts phrase.chain
  · intro t ht
    obtain rfl := Option.mem_unique last ht
    exact final

end Lexer

end Univariate
