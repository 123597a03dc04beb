import Univariate.Expr.Basic

/-!
# Routes in a tree

A subtree is found by the turns that lead to it from the root. The same subtree can stand at the end
of several routes, so what depends on the nodes above a subtree is said of the route.
-/
namespace Univariate

/-- Which operand to go to. The operand of a minus or a function is the only one. -/
inductive Turn where
  | only
  | left
  | right
  deriving DecidableEq, Repr

abbrev Route := List Turn

namespace Expr

variable {α : Type}

def operand? : Expr α → Turn → Option (Expr α)
  | neg e, .only | call _ e, .only => some e
  | bin _ l _, .left => some l
  | bin _ _ r, .right => some r
  | _, _ => none

/-- The subtree at the end of a route, if the tree has the route. -/
def at? (e : Expr α) : Route → Option (Expr α)
  | [] => some e
  | t :: p => (e.operand? t).bind (at? · p)

@[simp] theorem at?_nil (e : Expr α) : e.at? [] = some e := rfl

theorem at?_cons_eq_some_iff {e s : Expr α} {t : Turn} {p : Route} :
    e.at? (t :: p) = some s ↔ ∃ operand, e.operand? t = some operand ∧ operand.at? p = some s :=
  Option.bind_eq_some_iff

end Expr

end Univariate
