import Retrace.Breakpoint
import Retrace.CommandLine.Options
import Retrace.Session.Stop

/-!
# The command line

* `Command`: the two commands with their settings.
* `Command.parse`: reads the words of the command line.
-/

namespace Retrace.CommandLine

/-- What to replay, and how. -/
structure ReplaySettings where
  /-- The log. -/
  log : Option String := none
  /-- The breakpoints. -/
  breakpoints : List Breakpoint := []
  /-- The directory that holds the snapshots. -/
  snapshots : Option String := none
  /-- The directory that is searched for source files. -/
  sourceRoot : Option String := none
  /-- Whether consumed lines are echoed. -/
  echo : Bool := false
  /-- Whether the beginning of the log is a stop. -/
  stopOnEntry : Bool := false
  /-- How to move by call depth. -/
  step : Option StepKind := none
  /-- After how many stops to end. -/
  maxStops : Option Nat := none
  /-- How many lines are quoted behind debug output. -/
  debugContext : Option Nat := none
  deriving DecidableEq

/-- What to inspect, and how. -/
structure InspectSettings where
  /-- The log. -/
  log : Option String := none
  /-- Whether the checkpoints are printed as JSON. -/
  json : Bool := false
  deriving DecidableEq

/-- A command. -/
inductive Command
  | replay (log : String) (settings : ReplaySettings)
  | inspect (log : String) (settings : InspectSettings)

/-! ## Values -/

/-- Allows a setting once only. -/
def once {α : Type} (before : Option α) (value : Except UsageError α) :
    Except UsageError (Option α) :=
  if before.isSome then .error .repeatedOption else value.map some

/-- Allows a flag once only. -/
def flagOnce (before : Bool) : Except UsageError Bool :=
  if before then .error .repeatedOption else .ok true

/-- Reads a path. -/
def readPath (s : String) : Except UsageError String :=
  if s = "" then .error .invalidValue else .ok s

/-- Reads a count. -/
def readLimit (s : String) : Except UsageError Nat :=
  (Text.readCount s).mapError fun _ => .unreadableValue

/-- Reads a kind of step. -/
def readStep : String → Except UsageError StepKind
  | "over" => .ok .over
  | "in" => .ok .into
  | "out" => .ok .out
  | _ => .error .invalidValue

/-! ## Commands -/

/-- The option that asks for help. -/
def helpOption {σ : Type} : OptionSpec σ :=
  { long := "help", short := some 'h', effect := .flag fun _ => .error .helpAsked }

/-- The options of a replay. -/
def replayCommand : CommandSpec ReplaySettings where
  options :=
    [{ long := "break", short := some 'b'
       effect := .valued fun v s =>
        match Breakpoint.parse v with
        | .ok b => .ok { s with breakpoints := s.breakpoints ++ [b] }
        | .error _ => .error .unreadableValue },
      { long := "snapshots"
        effect := .valued fun v s =>
          (once s.snapshots (readPath v)).map fun snapshots => { s with snapshots } },
      { long := "source-root"
        effect := .valued fun v s =>
          (once s.sourceRoot (readPath v)).map fun sourceRoot => { s with sourceRoot } },
      { long := "trace-log"
        effect := .flag fun s => (flagOnce s.echo).map fun echo => { s with echo } },
      { long := "stop-on-entry"
        effect := .flag fun s =>
          (flagOnce s.stopOnEntry).map fun stopOnEntry => { s with stopOnEntry } },
      { long := "step"
        effect := .valued fun v s => (once s.step (readStep v)).map fun step => { s with step } },
      { long := "max-stops"
        effect := .valued fun v s =>
          (once s.maxStops (readLimit v)).map fun maxStops => { s with maxStops } },
      { long := "debug-context-lines"
        effect := .valued fun v s =>
          (once s.debugContext (readLimit v)).map fun debugContext => { s with debugContext } },
      helpOption]
  argument v s := (once s.log (readPath v)).map fun log => { s with log }

/-- The options of an inspection. -/
def inspectCommand : CommandSpec InspectSettings where
  options :=
    [{ long := "json", effect := .flag fun s => (flagOnce s.json).map fun json => { s with json } },
      helpOption]
  argument v s := (once s.log (readPath v)).map fun log => { s with log }

/-- The options in front of the command; the setting tells whether a log file is asked for. -/
def frontOptions : CommandSpec Bool where
  options :=
    [{ long := "log-file", effect := .flag flagOnce }, helpOption,
      { long := "version", short := some 'V', effect := .flag fun _ => .error .versionAsked }]
  argument _ _ := .error .unknownCommand

/-- The words that stand for a command. -/
def commandWords : List String := ["replay", "inspect", "help"]

namespace Command

/-- Reads the words behind the command `replay`. -/
def parseReplay (words : List String) : Except UsageError Command := do
  let settings ← replayCommand.read {} words
  match settings.log with
  | some log => return .replay log settings
  | none => throw .missingArgument

/-- Reads the words behind the command `inspect`. -/
def parseInspect (words : List String) : Except UsageError Command := do
  let settings ← inspectCommand.read {} words
  match settings.log with
  | some log => return .inspect log settings
  | none => throw .missingArgument

/-- Reads the words behind the command `help`: they name one command at most. -/
def parseHelp : List String → UsageError
  | [] => .helpAsked
  | [word] => if word ∈ commandWords then .helpAsked else .unknownCommand
  | _ => .unknownCommand

/-- Reads on in front of the command. -/
def parseFront (r : Reading Bool) : List String → Except UsageError Command
  | [] => .error (if r.settings then .missingCommand else .nothingGiven)
  | word :: words =>
    if r.optionsEnded then
      .error (if word ∈ commandWords then .unknownArgument else .unknownCommand)
    else
      match word with
      | "replay" => parseReplay words
      | "inspect" => parseInspect words
      | "help" => .error (parseHelp words)
      | word => (r.takeWord frontOptions word).bind fun r =>
        if r.unsettled.isSome then .error .unknownCommand else parseFront r words

/-- Reads the words of the command line, without the name of the program. -/
def parse (words : List String) : Except UsageError Command :=
  parseFront { settings := false } words

end Command

end Retrace.CommandLine
