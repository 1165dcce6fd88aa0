/-!
# Reading options

A command takes options, some with a value, and at most one argument of its own. The value of an
option stands in the same word, behind an equals sign, or in the next one. It is looked at only
when the next option or argument, or the end, settles that it is complete.

* `UsageError`: what can be wrong with the words of a command.
* `CommandSpec`: the options of a command and what they do to its settings.
* `CommandSpec.read`: reads the words of a command.
-/

namespace Retrace.CommandLine

/-- Why the words of a command are not carried out. -/
inductive UsageError
  /-- A value is missing, empty, or not one of the choices. -/
  | invalidValue
  /-- A value cannot be read. -/
  | unreadableValue
  /-- An option that takes no value has one. -/
  | unexpectedValue
  /-- The argument of the command is missing. -/
  | missingArgument
  /-- A word is no option and no argument of the command. -/
  | unknownArgument
  /-- An option stands twice. -/
  | repeatedOption
  /-- A word is no command. -/
  | unknownCommand
  /-- No command is given. -/
  | missingCommand
  /-- Nothing at all is given. -/
  | nothingGiven
  /-- Help is asked for. -/
  | helpAsked
  /-- The version is asked for. -/
  | versionAsked
  deriving DecidableEq, Repr

/-- What an option does to the settings of a command. -/
inductive Effect (σ : Type)
  /-- It takes no value. -/
  | flag (set : σ → Except UsageError σ)
  /-- It takes one value. -/
  | valued (set : String → σ → Except UsageError σ)

/-- An option. -/
structure OptionSpec (σ : Type) where
  /-- Its name, behind two dashes. -/
  long : String
  /-- Its letter, behind one dash. -/
  short : Option Char := none
  /-- What it does. -/
  effect : Effect σ

/-- A command. -/
structure CommandSpec (σ : Type) where
  /-- Its options. -/
  options : List (OptionSpec σ)
  /-- What its argument does. -/
  argument : String → σ → Except UsageError σ

/-- A value that is not settled yet. -/
structure Unsettled (σ : Type) where
  /-- What the value will do. -/
  set : String → σ → Except UsageError σ
  /-- The value; it may be yet to come. -/
  value : Option String

/-- How far the words of a command are read. -/
structure Reading (σ : Type) where
  /-- The settings. -/
  settings : σ
  /-- The value that is not settled yet. -/
  unsettled : Option (Unsettled σ) := none
  /-- Whether the argument was there. -/
  hasArgument : Bool := false
  /-- Whether two dashes have ended the options. -/
  optionsEnded : Bool := false

namespace Reading

variable {σ : Type}

/-- Settles the value that is not settled yet. -/
def settle (r : Reading σ) : Except UsageError (Reading σ) :=
  match r.unsettled with
  | none => .ok r
  | some ⟨_, none⟩ => .error .invalidValue
  | some ⟨set, some v⟩ =>
    (set v r.settings).map fun settings => { r with settings, unsettled := none }

/-- Settles what is before an option and takes the option in. -/
def takeOption (r : Reading σ) (effect : Effect σ) (attached : Option String) :
    Except UsageError (Reading σ) :=
  match effect, attached with
  | .flag _, some _ => .error .unexpectedValue
  | .flag set, none => do
    let r ← r.settle
    let settings ← set r.settings
    return { r with settings }
  | .valued set, some v => do
    let r ← r.settle
    let settings ← set v r.settings
    return { r with settings }
  | .valued set, none => do
    let r ← r.settle
    return { r with unsettled := some ⟨set, none⟩ }

/-- Takes in an argument: the value that an option waits for, or the one argument of the command. -/
def takeArgument (c : CommandSpec σ) (r : Reading σ) (word : String) :
    Except UsageError (Reading σ) :=
  match r.optionsEnded, r.unsettled with
  | false, some ⟨set, none⟩ => .ok { r with unsettled := some ⟨set, some word⟩ }
  | _, _ =>
    if r.hasArgument then .error .unknownArgument
    else do
      let r ← r.settle
      return { r with unsettled := some ⟨c.argument, some word⟩, hasArgument := true }

/-- Takes in the letters behind one dash. The rest of the word behind a letter whose option takes a
value is that value, an equals sign in between aside. -/
def takeLetters (c : CommandSpec σ) (r : Reading σ) : List Char → Except UsageError (Reading σ)
  | [] => .ok r
  | letter :: rest =>
    match c.options.find? (·.short = some letter) with
    | none => .error .unknownArgument
    | some option =>
      match option.effect, rest with
      | .flag _, _ => (r.takeOption option.effect none).bind fun r => takeLetters c r rest
      | .valued _, [] => r.takeOption option.effect none
      | .valued _, '=' :: value => r.takeOption option.effect (some (String.ofList value))
      | .valued _, value => r.takeOption option.effect (some (String.ofList value))

/-- Takes in a name behind two dashes. -/
def takeName (c : CommandSpec σ) (r : Reading σ) (word : List Char) :
    Except UsageError (Reading σ) :=
  let name := String.ofList (word.takeWhile (· ≠ '='))
  let attached :=
    match word.dropWhile (· ≠ '=') with
    | [] => none
    | _ :: value => some (String.ofList value)
  match c.options.find? (·.long = name) with
  | none => .error .unknownArgument
  | some option => r.takeOption option.effect attached

/-- Takes in a word. A dash alone is an argument. -/
def takeWord (c : CommandSpec σ) (r : Reading σ) (word : String) : Except UsageError (Reading σ) :=
  if r.optionsEnded then r.takeArgument c word
  else
    match word.toList with
    | ['-', '-'] => .ok { r with optionsEnded := true }
    | '-' :: '-' :: name => r.takeName c name
    | '-' :: letter :: letters => r.takeLetters c (letter :: letters)
    | _ => r.takeArgument c word

end Reading

/-- Reads the words of a command into its settings. -/
def CommandSpec.read {σ : Type} (c : CommandSpec σ) (settings : σ) (words : List String) :
    Except UsageError σ := do
  let r ← words.foldlM (Reading.takeWord c) { settings }
  let r ← r.settle
  return r.settings

end Retrace.CommandLine
