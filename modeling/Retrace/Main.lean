import Retrace.CommandLine.Run

/-!
# The program

* `systemFiles`: the files of the computer.
* `main`: carries out the command line and prints what comes of it.
-/

namespace Retrace

/-- The number of a cause: some accesses give it as it is, others give its complement. -/
def causeNumber (code : UInt32) : Nat :=
  min code.toNat (0 - code).toNat

/-- The cause of a failed access, as the program tells it. -/
def fileErrorOf : IO.Error → FileError
  | .noFileOrDirectory .. => .notFound
  | .inappropriateType _ code _ =>
    if causeNumber code = 20 then .notADirectory else .isADirectory
  | .invalidArgument _ code _ => if causeNumber code = 36 then .nameTooLong else .invalidPath
  | e => .other (toString e)

/-- An access whose failure is an answer. -/
def answering {α : Type} (access : IO α) : IO (Except FileError α) := do
  try
    return .ok (← access)
  catch e =>
    return .error (fileErrorOf e)

/-- The files of the computer. -/
def systemFiles : Files IO where
  read path := answering (IO.FS.readFile path)
  list path := answering do
    let directory ← IO.FS.realPath path
    let entries ← directory.readDir
    entries.toList.mapM fun entry => return ⟨entry.fileName, ← entry.path.isDir⟩

/-- What is told about words that cannot be carried out. -/
def usageText : CommandLine.UsageError → String
  | .invalidValue => "error: a value is missing or not allowed"
  | .unreadableValue => "error: a value cannot be read"
  | .unexpectedValue => "error: an option takes no value"
  | .missingArgument => "error: the log is missing"
  | .unknownArgument => "error: unexpected argument"
  | .repeatedOption => "error: an option cannot be used twice"
  | .unknownCommand => "error: unknown command"
  | .missingCommand => "error: the command is missing"
  | .nothingGiven | .helpAsked =>
    "Usage: retrace [--log-file] replay [OPTIONS] <LOG>\n" ++
      "       retrace [--log-file] inspect [--json] <LOG>"
  | .versionAsked => "retrace 0.0.2"

end Retrace

/-- Carries out the command line. -/
def main (words : List String) : IO UInt32 := do
  match Retrace.CommandLine.Command.parse words with
  | .error e =>
    if e = .helpAsked ∨ e = .versionAsked then
      IO.println (Retrace.usageText e)
      return 0
    else
      IO.eprintln (Retrace.usageText e)
      return 2
  | .ok command =>
    let outcome ← command.run Retrace.systemFiles
    IO.print outcome.output.out
    IO.eprint outcome.output.err
    match outcome.failure with
    | none => return 0
    | some failure =>
      IO.eprintln ("Error: " ++ failure)
      return 1
