import Retrace.Store

/-!
# Static variables

Each class has one scope for its static variables, and all frames of the class share it. Scopes of
no class serve frames that belong to none.

* `Statics.register`: the scope of a class, made at its first use.
* `Statics.createDetached`: a scope of no class.
* `Statics.staticsOf?`: the static variables of a class that has a scope.
-/

namespace Retrace

/-- Names a scope of static variables. -/
structure ScopeId where
  /-- Its place among the scopes. -/
  index : Nat
  deriving DecidableEq, Repr, Inhabited

/-- All scopes, and which class has which. -/
structure Statics where
  /-- The scopes in the order in which they were made. -/
  scopes : Array (Table BindingId) := #[]
  /-- The scopes of classes. -/
  byClass : Table ScopeId := .empty
  deriving DecidableEq, Inhabited

namespace Statics

/-- No scopes. -/
def empty : Statics := {}

/-- The scope of a class, when it has one. -/
def scopeOf? (s : Statics) (className : String) : Option ScopeId :=
  s.byClass.get? className

/-- Whether a class has a scope. -/
def hasClass (s : Statics) (className : String) : Bool :=
  s.byClass.contains className

/-- The variables of a scope. -/
def get (s : Statics) (i : ScopeId) : Table BindingId :=
  s.scopes[i.index]?.getD .empty

/-- The static variables of a class that has a scope. -/
def staticsOf? (s : Statics) (className : String) : Option (Table BindingId) :=
  (s.scopeOf? className).map s.get

/-- Makes a scope of no class. -/
def createDetached (s : Statics) : ScopeId × Statics :=
  (⟨s.scopes.size⟩, { s with scopes := s.scopes.push .empty })

/-- The scope of a class, made when it has none. -/
def register (s : Statics) (className : String) : ScopeId × Statics :=
  match s.scopeOf? className with
  | some i => (i, s)
  | none =>
    let (i, s') := s.createDetached
    (i, { s' with byClass := s'.byClass.insert className i })

/-- Puts a variable into a scope. -/
def insert (s : Statics) (i : ScopeId) (name : String) (b : BindingId) : Statics :=
  { s with scopes := s.scopes.modify i.index (·.insert name b) }

end Statics

end Retrace
