import Univariate.Text.Clean

/-!
# Comparing answers

Two answers are the same when their normal forms are: clean text in which powers are written `^`,
products are left out, and a digit before a letter is marked as a factor. The order of terms
matters.
-/

namespace Univariate.Answer

/-- Writes `^` for `**`, from left to right. -/
def mergePowers : List Char → List Char
  | '*' :: '*' :: cs => '^' :: mergePowers cs
  | c :: cs => c :: mergePowers cs
  | [] => []

/-- Marks each ASCII digit that stands before an ASCII letter. -/
def markProducts : List Char → List Char
  | c :: d :: cs =>
    if c.isDigit && d.isAlpha then c :: '·' :: markProducts (d :: cs)
    else c :: markProducts (d :: cs)
  | cs => cs

def normalChars (cs : List Char) : List Char :=
  markProducts ((mergePowers cs).filter (· ≠ '*'))

def normalize (answer : String) : String :=
  String.ofList (normalChars (Text.clean answer).toList)

def isSame (a b : String) : Bool := normalize a == normalize b

theorem isSame_iff {a b : String} : isSame a b = true ↔ normalize a = normalize b := beq_iff_eq

end Univariate.Answer
