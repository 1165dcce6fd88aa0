import Retrace.Text.Blank
import Retrace.Text.Cut

/-!
# The lines of a log

* `traceLines`: a log file as lines. Any number of carriage returns may stand before a line's end,
  and the last line may lack its end.
-/

namespace Retrace

/-- The pieces of a text between its line ends; nothing behind the last line end is no piece. -/
def linePieces (cs : List Char) : List (List Char) :=
  let parts := Text.pieces '\n' cs
  if parts.getLast? = some [] then parts.dropLast else parts

/-- The lines of a log, without their ends. -/
def traceLines (contents : String) : List String :=
  (linePieces contents.toList).map fun piece =>
    String.ofList (Text.dropEndWhile (· = '\r') piece)

end Retrace
