import Retrace.Signature
import Retrace.Text.Blank
import Retrace.Text.Count
import Retrace.Trace.Shape
import Retrace.TypeName

/-!
# Events

What a line of the log reports. A line is a row of fields with bars between them: the time, the
kind of the event, and fields that depend on the kind.

* `Event`: the kinds of events that a replay takes note of.
* `Declaration.ofFields?`, `Assignment.ofFields?`, …: the readers of the fields of one kind.
* `Event.ofLine`: the event of a line behind the first.
-/

namespace Retrace

/-- A variable is declared. -/
structure Declaration where
  /-- The name; a static variable may be qualified by its class. -/
  name : String
  /-- The declared type. -/
  typeName : String
  /-- Whether it is a static variable. -/
  isStatic : Bool
  deriving DecidableEq, Repr

/-- A variable or a field is assigned. -/
structure Assignment where
  /-- The name, with dots between an owner and its field. -/
  name : String
  /-- The value as the log writes it. -/
  value : String
  /-- The key of the object assigned, when the log gives it. -/
  reference : Option String
  deriving DecidableEq, Repr

/-- What a line reports. -/
inductive Event
  /-- The log begins. -/
  | logStart
  /-- A call begins. -/
  | call (signature : String)
  /-- A call ends. -/
  | finish (signature : String)
  /-- A statement is executed. -/
  | statement (line : Nat)
  /-- The program writes debug output. -/
  | debug (line : Nat) (text : String)
  /-- A variable is declared. -/
  | declaration (d : Declaration)
  /-- A variable or a field is assigned. -/
  | assignment (a : Assignment)
  /-- Nothing that a replay takes note of. -/
  | other
  deriving DecidableEq, Repr

/-- The fields of a line. -/
def lineFields (line : String) : List String :=
  Text.splitOn '|' line

/-! ## Readers of fields -/

/-- Reads a line number, with or without brackets and blanks around it. -/
def lineNumber? (field : String) : Option Nat :=
  let cs := Text.dropEndWhile (· = ']') ((Text.trimChars field.toList).dropWhile (· = '['))
  (Text.readCountChars cs).toOption

/-- The line of a statement: the third field. -/
def statementLine? (fields : List String) : Option Nat :=
  fields[2]?.bind lineNumber?

/-- The line and the text of debug output: the third field, and everything behind the fourth. -/
def debugOutput? (fields : List String) : Option (Nat × String) :=
  (statementLine? fields).bind fun line =>
    if 4 ≤ fields.length then some (line, Text.joinWith '|' (fields.drop 4)) else none

/-- Reads a declaration: name and type are the fourth and fifth fields, and the seventh tells
whether the variable is static. -/
def Declaration.ofFields? : List String → Option Declaration
  | _ :: _ :: _ :: name :: typeName :: rest =>
    some { name, typeName, isStatic := rest[1]? = some "true" }
  | _ => none

/-- Reads an assignment: the name is the fourth field, and the value everything behind it. An
address in a last field of its own is the key of the object. -/
def Assignment.ofFields? : List String → Option Assignment
  | _ :: _ :: _ :: name :: first :: rest =>
    match rest.getLast? with
    | some last =>
      if isAddress last then
        some ⟨name, Text.joinWith '|' (first :: rest.dropLast), some last⟩
      else some ⟨name, Text.joinWith '|' (first :: rest), none⟩
    | none => some ⟨name, first, none⟩
  | _ => none

/-- Whether the last field but one names an accessor call of a page. -/
def namesPropertyAccess (fields : List String) : Bool :=
  (fields.dropLast.getLast?).any Signature.isPropertyAccess

/-! ## Lines -/

/-- The event of a line of the given kind; `none` when its fields do not fit the kind. -/
def Event.ofFields? (line kind : String) (fields : List String) : Option Event :=
  match kind with
  | "CODE_UNIT_STARTED" | "CONSTRUCTOR_ENTRY" | "METHOD_ENTRY" => fields.getLast?.map .call
  | "CODE_UNIT_FINISHED" | "CONSTRUCTOR_EXIT" | "METHOD_EXIT" => fields.getLast?.map .finish
  | "VF_APEX_CALL_START" =>
    if namesPropertyAccess fields then none else fields.getLast?.map .call
  | "VF_APEX_CALL_END" =>
    if namesPropertyAccess fields then none else fields.getLast?.map .finish
  | "VARIABLE_SCOPE_BEGIN" => (Declaration.ofFields? fields).map .declaration
  | "VARIABLE_ASSIGNMENT" => (Assignment.ofFields? fields).map .assignment
  | "STATEMENT_EXECUTE" =>
    if isStatementShape line then (statementLine? fields).map .statement else none
  | "USER_DEBUG" =>
    if isDebugShape line then (debugOutput? fields).map fun (line, text) => .debug line text
    else none
  | _ => none

/-- The event of a line behind the first. A line of fewer than three fields reports nothing. -/
def Event.ofLine (line : String) : Event :=
  match lineFields line with
  | fields@(_ :: kind :: _ :: _) => (Event.ofFields? line kind fields).getD .other
  | _ => .other

end Retrace
