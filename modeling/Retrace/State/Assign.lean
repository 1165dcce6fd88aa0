import Retrace.Literal.Reader
import Retrace.State
import Retrace.Trace.Event

/-!
# Assignments

An assignment changes the variable it names and, when the log gives the key of an object, what is
known of that object. For every known object one binding stands in the reference table; variables
and fields that refer to the object hold its collection.

* `State.assignee`: which variable a name stands for.
* `State.decodeInto`, `State.decodeFields`: write a value into a binding, and the fields of an
  object into its children.
* `State.join`: binds a variable to an object.
* `State.assign`: the whole assignment.
-/

namespace Retrace.State

/-! ## Which variable is meant -/

/-- What the name of an assignment stands for. -/
inductive Assignee
  /-- A variable. -/
  | variable (b : BindingId)
  /-- A field of an object: the object is known by the key of the assignment only. -/
  | field
  /-- No variable that is known. -/
  | missing
  deriving DecidableEq

/-- The local variable `name` of the current call. -/
def local? (s : State) (name : String) : Option BindingId :=
  s.topActivation?.bind fun activation => activation.locals.get? name

/-- The local variable `name` of the current call, else the static one of its class. -/
def unqualified? (s : State) (name : String) : Option BindingId :=
  s.topActivation?.bind fun activation =>
    (activation.locals.get? name).or ((s.statics.get activation.statics).get? name)

/-- What a name stands for: a static variable when its owner is a known class; a local variable
called like its last part when its owner is not; else a field of an object. A name without an owner
is looked up in the current call. -/
def assignee (s : State) (owner : Option String) (leaf : String) : Assignee :=
  match owner with
  | none => (s.unqualified? leaf).elim .missing .variable
  | some className =>
    match s.statics.staticsOf? className with
    | some statics => (statics.get? leaf).elim .missing .variable
    | none => (s.local? leaf).elim .field .variable

/-! ## Objects -/

/-- The binding that stands for the object with the given key, made at first sight. -/
def referenceEntry (s : State) (key : String) : BindingId × State :=
  match s.references.get? key with
  | some entry => (entry, s)
  | none =>
    let (entry, s') := s.createBlank
    (entry,
      { s' with
        store := s'.store.modify entry fun binding => { binding with reference := some key }
        references := s'.references.insert key entry })

/-- Makes `child` refer to the known object that `entry` stands for. A type that `child` has
stays. -/
def link (s : State) (child entry : BindingId) (key : String) : State :=
  let known := s.store.get entry
  let store := (s.store.share child entry).modify child fun binding =>
    { binding with
      reference := some key
      value := known.value
      typeName := if binding.typeName = "" then known.typeName else binding.typeName }
  { s with store }.ensureHandle child

/-- The known object that a value refers to: its key and the binding that stands for it. -/
def knownObject? (s : State) (v : Literal) : Option (String × BindingId) :=
  v.key?.bind fun key => (s.references.get? key).map fun entry => (key, entry)

/-- Writes a value that is no object into a binding: it refers to a known object or is shown. -/
def decodeLeaf (s : State) (child : BindingId) (v : Literal) : State :=
  match s.knownObject? v with
  | some (key, entry) => s.link child entry key
  | none => s.mapStore (·.setValue child v.display)

mutual

/-- Writes a value into a binding. A value that refers to a known object makes the binding refer to
it too; an object is written field by field; any other value is only shown. -/
def decodeInto (s : State) (child : BindingId) : Literal → State
  | .object fields =>
    ((s.mapStore (·.setValue child "")).ensureHandle child).decodeFields child fields
  | .quoted text => s.decodeLeaf child (.quoted text)
  | .bare text => s.decodeLeaf child (.bare text)
  | .array text => s.decodeLeaf child (.array text)

/-- Writes the fields of an object into the children of `parent`, in order. -/
def decodeFields (s : State) (parent : BindingId) : List (String × Literal) → State
  | [] => s
  | (name, v) :: fields =>
    let (child, s') := s.childOrCreate parent name
    (s'.decodeInto child v).decodeFields parent fields

end

/-- Binds a variable to the object that `entry` stands for. A variable called `this` stays with the
object it was bound to first. -/
def join (s : State) (b entry : BindingId) (key leaf : String) : State :=
  if leaf = "this" ∧ (s.store.get b).reference.isSome then s
  else
    let text := (s.store.get entry).value
    let store := (s.store.share b entry).modify b fun binding =>
      { binding with reference := some key, value := text }
    { s with store }.ensureHandle b

/-! ## The assignment -/

/-- Whether the value is only shown as it is written: the variable is a collection, or the value a
list. -/
def showsRaw (s : State) (b : BindingId) (v : Literal) : Bool :=
  TypeName.isCollection (s.store.get b).typeName ||
    match v with
    | .array _ => true
    | _ => false

/-- Writes a value into the binding that stands for the object with the key of the assignment. -/
def assignObject (s : State) (entry : BindingId) (v : Literal) : State :=
  match v with
  | .object fields => (s.decodeFields entry fields).mapStore (·.setValue entry "")
  | v =>
    match s.knownObject? v with
    | some (_, known) => if known = entry then s else s.mapStore (·.share entry known)
    | none => s.mapStore (·.setValue entry v.display)

/-- Writes a value into a field of the object that `entry` stands for. -/
def assignField (s : State) (entry : BindingId) (leaf : String) (v : Literal) : State :=
  let (child, s') := s.childOrCreate entry leaf
  (s'.decodeInto child v).mapStore (·.setValue entry "")

/-- Applies an assignment. -/
def assign (s : State) (a : Assignment) : State :=
  let (owner, leaf) := Text.ownerAndLeaf a.name
  let v := Literal.parse a.value
  match s.assignee owner leaf, a.reference with
  | .variable b, none => s.mapStore (·.setValue b a.value)
  | .variable b, some key =>
    if s.showsRaw b v then s.mapStore (·.setValue b a.value)
    else
      let (entry, s') := s.referenceEntry key
      (s'.assignObject entry v).join b entry key leaf
  | .field, some key =>
    let (entry, s') := s.referenceEntry key
    s'.assignField entry leaf v
  | .missing, some key =>
    let (entry, s') := s.referenceEntry key
    s'.assignObject entry v
  | _, none => s

end Retrace.State
