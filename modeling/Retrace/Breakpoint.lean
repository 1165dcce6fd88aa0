import Retrace.Locator
import Retrace.Text.Blank
import Retrace.Text.Count

/-!
# Line breakpoints

A breakpoint is written as a file and a line with a colon between them. The last colon counts, so
the file may itself hold colons.

* `Breakpoint.parse`: the reader; `BreakpointError` lists what can be wrong.
* `Breakpoint.text`: the printer.
* `Breakpoint.isHitBy`, `isBreakable`: whether one breakpoint, or one of several, stops at a line.
-/

namespace Retrace

/-- A line to stop at. -/
structure Breakpoint where
  /-- A file name, or the last names of a path. -/
  file : String
  /-- The line, counted from one. -/
  line : Nat
  deriving DecidableEq, Repr

/-- Why a text is no breakpoint. -/
inductive BreakpointError
  /-- The text has no colon. -/
  | noColon (text : String)
  /-- Nothing stands before the last colon. -/
  | emptyFile (text : String)
  /-- What follows the last colon is no count. -/
  | badLine (cause : Text.CountError)
  /-- Lines are counted from one. -/
  | lineZero
  deriving DecidableEq, Repr

/-- The wording of the cause. -/
def BreakpointError.message : BreakpointError → String
  | .noColon text => "Invalid breakpoint format. Expected <file>:<line>, got: " ++ text
  | .emptyFile text => "Breakpoint file is empty in: " ++ text
  | .badLine cause => "Invalid line number: " ++ cause.message
  | .lineZero => "Breakpoint lines are 1-based, got 0"

namespace Breakpoint

/-- The breakpoint as it is written. -/
def text (b : Breakpoint) : String :=
  b.file ++ ":" ++ toString b.line

/-- Reads a breakpoint; blanks around it do not count. -/
def parse (s : String) : Except BreakpointError Breakpoint :=
  match Text.cutLast ':' (Text.trimChars s.toList) with
  | none => .error (.noColon s)
  | some (file, line) =>
    if file.isEmpty then .error (.emptyFile s)
    else
      match Text.readCountChars line with
      | .error cause => .error (.badLine cause)
      | .ok 0 => .error .lineZero
      | .ok n => .ok ⟨String.ofList file, n⟩

/-- Whether a frame in `source` at `line` stops here. -/
def isHitBy (b : Breakpoint) (source : Locator) (line : Nat) : Bool :=
  b.line = line && source.matchesFile b.file

end Breakpoint

/-- Whether one of the breakpoints stops a frame in `source` at `line`. -/
def isBreakable (breakpoints : List Breakpoint) (source : Locator) (line : Nat) : Bool :=
  breakpoints.any (·.isHitBy source line)

end Retrace
