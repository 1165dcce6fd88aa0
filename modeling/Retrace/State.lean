import Retrace.Handles
import Retrace.Locator
import Retrace.Statics

/-!
# The replayed state

What a replay has rebuilt of the execution: the call stack with the variables of every active call,
the static variables, the objects seen so far, and the handles given to the user.

* `Frame`, `Activation`: an active call as it is shown, and its variables. Both go by the frame's
  number.
* `State`: the whole state; `State.top?` and `State.topActivation?` show the current call.
* `State.ensureHandle`: makes a binding expandable.
* `State.expand?`: the bindings behind a handle.
-/

namespace Retrace

/-- An active call, as shown in a stack listing. -/
structure Frame where
  /-- The number of the frame. -/
  id : Nat
  /-- The signature of the call. -/
  name : String
  /-- Where its code lives. -/
  source : Locator
  /-- The line it has reached. -/
  line : Nat
  deriving DecidableEq, Repr

/-- The variables of an active call. -/
structure Activation where
  /-- How many calls were active when it began. -/
  depth : Nat
  /-- The signature it was entered with. -/
  signature : String
  /-- The class it belongs to. -/
  className : String
  /-- The static variables of the class. -/
  statics : ScopeId
  /-- The local variables. -/
  locals : Table BindingId := .empty
  /-- The trigger variables, known from snapshots only. -/
  globals : Table BindingId := .empty
  deriving DecidableEq

/-- The scopes of a frame. -/
inductive ScopeKind
  | locals
  | statics
  | globals
  deriving DecidableEq, Repr

namespace ScopeKind

/-- All scopes in the order in which they are shown. -/
def all : List ScopeKind := [.locals, .statics, .globals]

/-- The heading of the scope. -/
def title : ScopeKind → String
  | .locals => "Local"
  | .statics => "Static"
  | .globals => "Global"

end ScopeKind

/-- What a handle expands to. -/
inductive Target
  /-- The children of a binding. -/
  | binding (b : BindingId)
  /-- The variables of one scope of a frame. -/
  | scope (frame : Nat) (kind : ScopeKind)
  deriving DecidableEq

/-- A binding as the user sees it. -/
structure View where
  /-- The name. -/
  name : String
  /-- The declared type. -/
  typeName : String
  /-- The text of the value. -/
  value : String
  /-- The handle that expands it, zero when it has none. -/
  handle : Nat
  deriving DecidableEq, Repr

/-- Everything rebuilt of an execution. -/
structure State where
  /-- The bindings. -/
  store : Store := .empty
  /-- The static variables. -/
  statics : Statics := .empty
  /-- The binding that stands for each known object, by reference key. -/
  references : Table BindingId := .empty
  /-- The call stack, the current call first. -/
  stack : List Frame := []
  /-- The variables of the active calls, by frame number. -/
  activations : Handles Activation := .empty
  /-- What the handles given to the user expand to. -/
  handles : Handles Target := .empty
  deriving DecidableEq, Inhabited

namespace State

/-- The state before anything was executed. -/
def empty : State := {}

/-! ## Reading -/

/-- The current frame. -/
def top? (s : State) : Option Frame :=
  s.stack.head?

/-- The variables of the current call. -/
def topActivation? (s : State) : Option Activation :=
  s.top?.bind fun frame => s.activations.get? frame.id

/-- The variables of one scope of a frame. -/
def scope? (s : State) (frame : Nat) (kind : ScopeKind) : Option (Table BindingId) :=
  (s.activations.get? frame).map fun activation =>
    match kind with
    | .locals => activation.locals
    | .statics => s.statics.get activation.statics
    | .globals => activation.globals

/-- The bindings that a handle expands to. -/
def expand? (s : State) (handle : Nat) : Option (List BindingId) :=
  match s.handles.get? handle with
  | none => none
  | some (.binding b) => some (s.store.children b).values
  | some (.scope frame kind) => (s.scope? frame kind).map (·.values)

/-- A binding as the user sees it. -/
def view (s : State) (b : BindingId) : View :=
  let binding := s.store.get b
  { name := binding.name
    typeName := binding.typeName
    value := binding.value
    handle := binding.handle.getD 0 }

/-- The bindings behind a handle, as the user sees them; none behind an unknown handle. -/
def views (s : State) (handle : Nat) : List View :=
  ((s.expand? handle).getD []).map s.view

/-! ## Writing -/

/-- Replaces the store by what `f` makes of it. -/
def mapStore (s : State) (f : Store → Store) : State :=
  { s with store := f s.store }

/-- Gives a binding a handle unless it has one. -/
def ensureHandle (s : State) (b : BindingId) : State :=
  match (s.store.get b).handle with
  | some _ => s
  | none =>
    { s with
      handles := s.handles.create (.binding b)
      store := s.store.modify b fun binding => { binding with handle := some s.handles.next } }

/-- Makes a binding without name and type. -/
def createBlank (s : State) : BindingId × State :=
  let (b, store) := s.store.create "" "" ""
  (b, { s with store })

/-- The child of a binding, made when it is missing. -/
def childOrCreate (s : State) (b : BindingId) (name : String) : BindingId × State :=
  let (child, store) := s.store.childOrCreate b name
  (child, { s with store })

/-- Changes the variables of the current call. -/
def modifyTop (s : State) (f : Activation → Activation) : State :=
  match s.top? with
  | none => s
  | some frame => { s with activations := s.activations.update frame.id f }

/-- Pushes a frame for a new call. -/
def pushFrame (s : State) (signature className : String) (statics : ScopeId) (source : Locator)
    (line : Nat) : State :=
  { s with
    stack := ⟨s.activations.next, signature, source, line⟩ :: s.stack
    activations :=
      s.activations.create { depth := s.stack.length, signature, className, statics } }

/-- Drops the current frame, when there is one. -/
def popFrame (s : State) : State :=
  match s.stack with
  | [] => s
  | frame :: stack => { s with stack, activations := s.activations.remove frame.id }

/-- Moves the current frame to a line. -/
def setLine (s : State) (line : Nat) : State :=
  match s.stack with
  | [] => s
  | frame :: stack => { s with stack := { frame with line } :: stack }

end State

end Retrace
