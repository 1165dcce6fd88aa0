import Retrace.Text.Cut
import Retrace.Text.Digit

/-!
# Shapes of log lines

Some lines count only when they have the right shape: bars around a line number in brackets, or the
log levels that a replay needs. A shape may begin anywhere in the line, but has to lie on one
physical line when the text holds several.

* `isStatementShape`, `isDebugShape`: executed statements and debug output.
* `hasReplayLevels`: the header of a log that was captured with enough detail.
-/

namespace Retrace

/-- What follows a line number in brackets with a bar in front, when the text begins so. -/
def afterLineNumber : List Char → Option (List Char)
  | '|' :: '[' :: cs =>
    if (cs.takeWhile Text.isDecimalDigit).isEmpty then none
    else
      match cs.dropWhile Text.isDecimalDigit with
      | ']' :: rest => some rest
      | _ => none
  | _ => none

/-- Whether behind the first bar of the text there is a line number whose rest satisfies `p`. -/
def hasLineNumber (p : List Char → Bool) (cs : List Char) : Bool :=
  match Text.cutFirst '|' cs with
  | some (_, behind) => Text.anySuffix (fun suffix => (afterLineNumber suffix).any p) behind
  | none => false

/-- Whether a line has the shape of an executed statement. -/
def isStatementShape (line : String) : Bool :=
  (Text.pieces '\n' line.toList).any (hasLineNumber fun _ => true)

/-- Whether a line has the shape of debug output: two more bars follow the line number, the first
of them at once. -/
def isDebugShape (line : String) : Bool :=
  (Text.pieces '\n' line.toList).any <| hasLineNumber fun
    | '|' :: rest => '|' ∈ rest
    | _ => false

/-- What follows the first two decimal digits that stand side by side. -/
def afterTwoDigits : List Char → Option (List Char)
  | c :: d :: cs =>
    if Text.isDecimalDigit c && Text.isDecimalDigit d then some cs else afterTwoDigits (d :: cs)
  | _ => none

/-- Whether the header of a log announces all code events and at least finer page events: a version
number, then the one level, then the other. -/
def hasReplayLevels (header : String) : Bool :=
  (Text.pieces '\n' header.toList).any fun cs =>
    match (afterTwoDigits cs).bind (Text.afterWord "APEX_CODE,FINEST;".toList) with
    | none => false
    | some rest =>
      (Text.afterWord "VISUALFORCE,FINER;".toList rest).isSome ||
        (Text.afterWord "VISUALFORCE,FINEST;".toList rest).isSome

end Retrace
