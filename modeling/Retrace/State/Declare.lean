import Retrace.State
import Retrace.Trace.Event

/-!
# Declarations

* `State.declare`: a declaration makes a binding in a scope of the current call. A local variable
  that is declared again keeps its binding; a static one gets a new binding.
-/

namespace Retrace.State

/-- The scope of a static variable: that of the class it is qualified by, else that of the current
call. -/
def staticScope (s : State) (activation : Activation) (owner : Option String) : ScopeId × Statics :=
  match owner with
  | some className => s.statics.register className
  | none => (activation.statics, s.statics)

/-- Declares a variable. Outside every call nothing can be declared. -/
def declare (s : State) (d : Declaration) : State :=
  match s.topActivation? with
  | none => s
  | some activation =>
    if d.isStatic then
      let (owner, leaf) := Text.ownerAndLeaf d.name
      let (scope, statics) := s.staticScope activation owner
      let (b, store) := s.store.declare leaf d.typeName
      { s with store, statics := statics.insert scope leaf b }
    else if activation.locals.contains d.name then s
    else
      let (b, store) := s.store.declare d.name d.typeName
      { s with store }.modifyTop fun activation =>
        { activation with locals := activation.locals.insert d.name b }

end Retrace.State
