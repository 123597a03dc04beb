import Univariate.Text.Blank
import Univariate.Text.Lowercase

/-!
# Clean text

Expressions and answers are read without their blanks and in lower case. Blanks go first, so the
letters on both sides of a blank are neighbours when the case of a sigma is decided.
-/

namespace Univariate.Text

def clean (text : String) : String :=
  String.ofList (lowercase (text.toList.filter (! isBlank ·)))

/-- The lower case of a name, whose blanks stay. -/
def lower (name : String) : String :=
  String.ofList (lowercase name.toList)

end Univariate.Text
