import Retrace.Locator

/-!
# Console messages

What a replay has to tell besides its state: echoed lines, debug output, complaints.

* `Message`: a text, its channel, and the source line it belongs to.
* `Message.text`: the message as it is printed.
-/

namespace Retrace

/-- Where a message goes. -/
inductive Channel
  /-- Output of the program, such as echoed lines. -/
  | stdout
  /-- Complaints. -/
  | stderr
  /-- Messages of the debugger itself, debug output among them. -/
  | console
  deriving DecidableEq, Repr

/-- A message. -/
structure Message where
  /-- Where it goes. -/
  channel : Channel
  /-- What it says. -/
  content : String
  /-- The source it belongs to. -/
  source : Option Locator := none
  /-- The line of the source. -/
  line : Option Nat := none
  deriving DecidableEq, Repr

/-- The message with its source in front, when that is known. -/
def Message.text (m : Message) : String :=
  match m.source with
  | none => m.content
  | some source =>
    if source.isEmpty then m.content
    else
      match m.line with
      | some line => "[" ++ source.name ++ ":" ++ toString line ++ "] " ++ m.content
      | none => "[" ++ source.name ++ "] " ++ m.content

end Retrace
