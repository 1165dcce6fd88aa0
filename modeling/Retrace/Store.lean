import Retrace.Table

/-!
# The store of bindings

Everything a replay shows is a binding: a named, typed value that may refer to an object on the
heap. The children of a binding live in a collection of their own, and bindings that refer to the
same object hold the same collection. So a child written through one of them is the child read
through every other.

* `Binding`, `BindingId`, `CollectionId`: the bindings and how they name each other.
* `Store`: all bindings and collections ever made. Ids only come from the store itself; an id from
  elsewhere shows a blank binding or an empty collection.
* `Store.childOrCreate`: the child of a name, made when it is missing.
* `Store.share`, `Store.detach`, `Store.clear`: the three ways to change what a binding's children
  are: join the collection of another binding, leave for an empty one, or empty the collection for
  everybody who holds it.
-/

namespace Retrace

/-- Names a binding of a store. -/
structure BindingId where
  /-- Its place in the store. -/
  index : Nat
  deriving DecidableEq, Repr, Inhabited

/-- Names a collection of a store. -/
structure CollectionId where
  /-- Its place in the store. -/
  index : Nat
  deriving DecidableEq, Repr, Inhabited

/-- The text shown for a variable that was declared and not assigned yet. -/
def nullText : String := "null"

/-- A named value. -/
structure Binding where
  /-- The name shown to the user. -/
  name : String := ""
  /-- The declared type, empty until it is known. -/
  typeName : String := ""
  /-- The text shown for the value. -/
  value : String := ""
  /-- The key of the object referred to. -/
  reference : Option String := none
  /-- The number under which the user expands the binding. -/
  handle : Option Nat := none
  /-- The collection of the children. -/
  children : CollectionId := ⟨0⟩
  deriving DecidableEq, Inhabited

/-- All bindings and collections. -/
structure Store where
  /-- The bindings in the order in which they were made. -/
  bindings : Array Binding := #[]
  /-- The collections in the order in which they were made. -/
  collections : Array (Table BindingId) := #[]
  deriving DecidableEq, Inhabited

namespace Store

/-- The store without bindings. -/
def empty : Store := {}

/-- The number of bindings ever made. -/
def size (s : Store) : Nat :=
  s.bindings.size

/-! ## Reading -/

/-- A binding. -/
def get (s : Store) (b : BindingId) : Binding :=
  s.bindings[b.index]?.getD {}

/-- A collection. -/
def collection (s : Store) (c : CollectionId) : Table BindingId :=
  s.collections[c.index]?.getD .empty

/-- The children of a binding. -/
def children (s : Store) (b : BindingId) : Table BindingId :=
  s.collection (s.get b).children

/-- The child called `name`. -/
def child? (s : Store) (b : BindingId) (name : String) : Option BindingId :=
  (s.children b).get? name

/-! ## Writing -/

/-- Changes a binding. -/
def modify (s : Store) (b : BindingId) (f : Binding → Binding) : Store :=
  { s with bindings := s.bindings.modify b.index f }

/-- Changes a collection. -/
def modifyCollection (s : Store) (c : CollectionId)
    (f : Table BindingId → Table BindingId) : Store :=
  { s with collections := s.collections.modify c.index f }

/-- Changes the text shown for a value. -/
def setValue (s : Store) (b : BindingId) (text : String) : Store :=
  s.modify b fun binding => { binding with value := text }

/-- Changes a type. -/
def setType (s : Store) (b : BindingId) (type : String) : Store :=
  s.modify b fun binding => { binding with typeName := type }

/-- Makes a binding with a collection of its own, which is empty. -/
def create (s : Store) (name typeName value : String) : BindingId × Store :=
  (⟨s.bindings.size⟩,
    { bindings := s.bindings.push { name, typeName, value, children := ⟨s.collections.size⟩ }
      collections := s.collections.push .empty })

/-- Makes the binding of a variable that is declared and not assigned yet. -/
def declare (s : Store) (name typeName : String) : BindingId × Store :=
  s.create name typeName nullText

/-- The child called `name`; when it is missing, a new one without type and value. -/
def childOrCreate (s : Store) (b : BindingId) (name : String) : BindingId × Store :=
  match s.child? b name with
  | some child => (child, s)
  | none =>
    let (child, s') := s.create name "" ""
    (child, s'.modifyCollection (s.get b).children (·.insert name child))

/-- Makes `target` hold the very collection of `source`. -/
def share (s : Store) (target source : BindingId) : Store :=
  let c := (s.get source).children
  s.modify target fun binding => { binding with children := c }

/-- Gives `target` a new empty collection. -/
def detach (s : Store) (target : BindingId) : Store :=
  let c : CollectionId := ⟨s.collections.size⟩
  { s with collections := s.collections.push .empty }.modify target
    fun binding => { binding with children := c }

/-- Empties the collection of `target`. -/
def clear (s : Store) (target : BindingId) : Store :=
  s.modifyCollection (s.get target).children fun _ => .empty

end Store

end Retrace
