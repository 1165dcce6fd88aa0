import Retrace.State

/-!
# Stops

What the user is shown when a session stops: the call stack and the variables of the current call.

* `StepKind`: the moves by call depth; `StepKind.completes` tells where they end.
* `StopReason`, `Stop`: a stop; `Stop.text` is its listing.
-/

namespace Retrace

/-- The moves by call depth. -/
inductive StepKind
  /-- To the next pause in the current call or a caller. -/
  | over
  /-- To the next pause in the current call or a callee. -/
  | into
  /-- To the next pause in a caller. -/
  | out
  deriving DecidableEq, Repr

/-- Whether a move that began with `before` active calls ends where `now` are active. -/
def StepKind.completes (before now : Nat) : StepKind → Bool
  | .over => now ≠ 0 && now ≤ before
  | .into => before ≤ now
  | .out => now ≠ 0 && now < before

/-- Why a session stops. -/
inductive StopReason
  /-- The log begins. -/
  | entry
  /-- A move has ended. -/
  | step
  /-- A breakpoint is hit. -/
  | breakpoint
  deriving DecidableEq, Repr

/-- The reason in a word. -/
def StopReason.text : StopReason → String
  | .entry => "entry"
  | .step => "step"
  | .breakpoint => "breakpoint"

/-- A stop. -/
structure Stop where
  /-- Its number, counted from one. -/
  index : Nat
  /-- Why the session stops. -/
  reason : StopReason
  /-- Whether a snapshot is shown. -/
  overlay : Bool
  /-- The call stack, the current call first. -/
  frames : List Frame
  /-- The scopes of the current call that hold variables. -/
  scopes : List (ScopeKind × List View)
  deriving DecidableEq

namespace Stop

/-- The line that tells why and where. -/
def headline (s : Stop) : String :=
  "Stop #" ++ toString s.index ++ " (" ++ s.reason.text ++ ")" ++
    (s.frames.head?.elim "" fun top => " at " ++ top.source.name ++ ":" ++ toString top.line) ++
    (if s.overlay then " [heap dump]" else "")

/-- The line of a call in the stack. -/
def frameText (depth : Nat) (frame : Frame) : String :=
  "  #" ++ toString depth ++ " " ++ frame.name ++ " at " ++ frame.source.text ++ ":" ++
    toString frame.line

/-- The line of a variable. -/
def viewText (v : View) : String :=
  "    " ++ v.name ++ ": " ++ v.typeName ++ " = " ++ v.value

/-- The lines of a scope. -/
def scopeLines (kind : ScopeKind) (views : List View) : List String :=
  ("  " ++ kind.title ++ ":") :: views.map viewText

/-- The lines of a stop. -/
def lines (s : Stop) : List String :=
  s.headline :: s.frames.zipIdx.map (fun (frame, depth) => frameText depth frame) ++
    s.scopes.flatMap fun (kind, views) => scopeLines kind views

/-- The listing of a stop; every line has its end. -/
def text (s : Stop) : String :=
  String.join (s.lines.map (· ++ "\n"))

end Stop

end Retrace
