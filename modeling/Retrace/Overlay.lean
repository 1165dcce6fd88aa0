import Retrace.Snapshot
import Retrace.State
import Retrace.Store.Display

/-!
# Overlays

At a checkpoint the snapshot knows more than the log told. An overlay writes the snapshot into the
state: objects get their captured fields, variables their captured values, and triggers their
context variables. It works in passes, so that the order in which a snapshot lists its types and
values does not matter: first every object gets its children, addresses among them only noted; then
the noted addresses become references; then variables follow; then the texts of all objects are
written anew.

* `Overlay`: the state under construction and what is noted for later passes.
* `Overlay.refreshObject`, `resolvePending`, `updateRoot`, `createTriggerGlobals`,
  `refreshDisplays`, `namePairs`: the passes.
* `State.overlay`: all passes together.
-/

namespace Retrace

/-- What the names of trigger context variables begin with. -/
def triggerVariable : String := "Trigger."

/-- An overlay under construction. -/
structure Overlay where
  /-- The state as far as it is written. -/
  state : State
  /-- The captured strings in quotes, by address. -/
  strings : Table String := .empty
  /-- Children that hold an address which is to become a reference. -/
  pending : List (BindingId × String) := []
  /-- Bindings that refer to objects and whose text is to be written anew. -/
  touched : List BindingId := []
  /-- Children of maps, which are named after their keys in the end. -/
  pairs : List BindingId := []

namespace Overlay

/-! ## Writing single bindings -/

/-- Replaces the state by what `f` makes of it. -/
def mapState (o : Overlay) (f : State → State) : Overlay :=
  { o with state := f o.state }

/-- Replaces the store by what `f` makes of it. -/
def mapStore (o : Overlay) (f : Store → Store) : Overlay :=
  o.mapState (·.mapStore f)

/-- Makes `child` a plain value; it leaves the object it referred to. -/
def setScalar (o : Overlay) (child : BindingId) (text : String) : Overlay :=
  o.mapStore fun store =>
    let store :=
      if (store.get child).reference.isSome then
        (store.detach child).modify child fun binding => { binding with reference := none }
      else store
    store.setValue child text

/-- Makes `child` refer to the object that `entry` stands for. A type that `child` has stays. -/
def link (o : Overlay) (child entry : BindingId) (address : String) : Overlay :=
  let type := (o.state.store.get entry).typeName
  let store := (o.state.store.share child entry).modify child fun binding =>
    { binding with
      reference := some address
      typeName := if binding.typeName = "" then type else binding.typeName }
  { o with
    state := { o.state with store }.ensureHandle child
    touched := o.touched ++ [child] }

/-- Writes a captured value into a child. Strings are known by now; any other address waits until
every object is there. -/
def assignSlot (o : Overlay) (child : BindingId) (v : Json) : Overlay :=
  match v.asString?.filter isAddress with
  | none => o.setScalar child v.text
  | some address =>
    match o.strings.get? address with
    | some text => o.setScalar child text
    | none =>
      { o.mapStore (·.setValue child address) with pending := o.pending ++ [(child, address)] }

/-- The child of a binding, made when it is missing. -/
def childOrCreate (o : Overlay) (b : BindingId) (name : String) : BindingId × Overlay :=
  let (child, state) := o.state.childOrCreate b name
  (child, { o with state })

/-! ## Strings -/

/-- The captured strings in quotes, by address. Of several at one address the last counts. -/
def stringsOf (snapshot : Snapshot) : Table String :=
  (snapshot.extents.filter fun extent => TypeName.isString extent.typeName).foldl
    (fun strings extent =>
      extent.captures.foldl
        (fun strings c => strings.insert c.address ("'" ++ c.content.value.text ++ "'")) strings)
    .empty

/-! ## Objects -/

/-- Writes the fields of an object. -/
def writeFields (o : Overlay) (b : BindingId) (fields : List Entry) : Overlay :=
  fields.foldl
    (fun o field =>
      let (child, o) := o.childOrCreate b field.key
      o.assignSlot child field.value)
    o

/-- Writes an entry of a map, as a child with a key and a value. -/
def writePair (o : Overlay) (b : BindingId) (keyType valueType : String) (index : Nat)
    (entry : Entry) : Overlay :=
  let name := pairKey ++ toString index ++ "_" ++ pairValue ++ toString index
  let (pair, o) := o.childOrCreate b name
  let o := (o.mapStore (·.setType pair pairType)).mapState (·.ensureHandle pair)
  let o := { o with pairs := o.pairs ++ [pair] }
  let (key, o) := o.childOrCreate pair pairKey
  let o := (o.mapStore (·.setType key keyType)).assignSlot key (.string entry.key)
  let (value, o) := o.childOrCreate pair pairValue
  (o.mapStore (·.setType value valueType)).assignSlot value entry.value

/-- Writes the entries of a map. -/
def writePairs (o : Overlay) (b : BindingId) (keyType valueType : String)
    (entries : List Entry) : Overlay :=
  entries.zipIdx.foldl (fun o (entry, index) => o.writePair b keyType valueType index entry) o

/-- Writes the elements of a list or set, named by their places. -/
def writeElements (o : Overlay) (b : BindingId) (elementType : String)
    (elements : List Json) : Overlay :=
  elements.zipIdx.foldl
    (fun o (element, index) =>
      let (child, o) := o.childOrCreate b (toString index)
      (o.mapStore (·.setType child elementType)).assignSlot child element)
    o

/-- The binding that stands for the object at an address, made when it is missing. -/
def objectAt (o : Overlay) (address : String) : BindingId × Overlay :=
  match o.state.references.get? address with
  | some b => (b, o)
  | none =>
    let (b, state) := o.state.createBlank
    (b, { o with state := { state with references := state.references.insert address b } })

/-- Whether an object keeps its children and only gets new ones: it is known, and the current call
belongs to its type. -/
def merges (o : Overlay) (type address : String) : Bool :=
  o.state.references.contains address &&
    o.state.topActivation?.any fun activation => Text.contains activation.signature type

/-- Writes the captured children of an object. -/
def writeContent (o : Overlay) (b : BindingId) (extent : Extent) (content : Content) : Overlay :=
  let itemType := extent.collectionType.getD ""
  if TypeName.isCollection extent.typeName then
    match content.entries with
    | some entries => o.writePairs b (TypeName.mapKey extent.typeName itemType) itemType entries
    | none => o.writeElements b itemType content.elements
  else o.writeFields b (content.entries.getD [])

/-- Writes a captured object into the binding that stands for it. -/
def refreshObject (o : Overlay) (extent : Extent) (c : Capture) : Overlay :=
  let merges := o.merges extent.typeName c.address
  let (b, o) := o.objectAt c.address
  let o := o.mapStore fun store =>
    let store := store.modify b fun binding =>
      { binding with typeName := extent.typeName, reference := some c.address }
    if merges then store else store.clear b
  { o with touched := o.touched ++ [b] }.writeContent b extent c.content

/-- Writes all captured objects. -/
def refreshObjects (o : Overlay) (snapshot : Snapshot) : Overlay :=
  (snapshot.extents.filter fun extent => !TypeName.isPrimitive extent.typeName).foldl
    (fun o extent => extent.captures.foldl (fun o c => o.refreshObject extent c) o) o

/-- Makes the addresses that were noted into references. An address of no known object stays as
text. -/
def resolvePending (o : Overlay) : Overlay :=
  o.pending.foldl
    (fun o (child, address) =>
      match o.state.references.get? address with
      | some entry => o.link child entry address
      | none => o.setScalar child address)
    { o with pending := [] }

/-! ## Variables -/

/-- The variable of the current call that a symbol names: a local variable, a static one of the
class in front of the dot, or a static one of the call's class. -/
def rootOf? (o : Overlay) (symbol : String) : Option BindingId :=
  o.state.topActivation?.bind fun activation =>
    let (owner, leaf) := Text.ownerAndLeaf symbol
    (activation.locals.get? symbol).or <|
      (owner.bind fun className =>
        (o.state.statics.staticsOf? className).bind (·.get? leaf)).or
        ((o.state.statics.get activation.statics).get? symbol)

/-- Gives a variable the captured value: its string, a reference to its object, or its text. -/
def writeRoot (o : Overlay) (b : BindingId) (extent : Extent) (c : Capture) : Overlay :=
  match o.strings.get? c.address with
  | some text => o.setScalar b text
  | none =>
    match o.state.references.get? c.address with
    | some entry =>
      if TypeName.isPrimitive extent.typeName then o.setScalar b c.content.value.text
      else o.link b entry c.address
    | none => o.setScalar b c.content.value.text

/-- Updates the variable that the first symbol of a captured value names. -/
def updateRoot (o : Overlay) (extent : Extent) (c : Capture) : Overlay :=
  match c.firstSymbol?.bind o.rootOf? with
  | none => o
  | some b => (o.mapStore (·.setType b extent.typeName)).writeRoot b extent c

/-- Updates all variables. -/
def updateRoots (o : Overlay) (snapshot : Snapshot) : Overlay :=
  snapshot.extents.foldl
    (fun o extent => extent.captures.foldl (fun o c => o.updateRoot extent c) o) o

/-- Whether an extent holds trigger context variables: truth values or collections, the first of
them a trigger variable. -/
def isTriggerExtent (extent : Extent) : Bool :=
  (TypeName.isBoolean extent.typeName || TypeName.isCollection extent.typeName) &&
    (extent.captures.head?.bind (·.firstSymbol?)).any (Text.startsWith · triggerVariable)

/-- Makes a trigger context variable of the current call. -/
def createTriggerGlobal (o : Overlay) (extent : Extent) (c : Capture) (symbol : String) : Overlay :=
  let (b, store) := o.state.store.create symbol extent.typeName ""
  let o := o.mapState fun state => { state with store }
  (o.writeRoot b extent c).mapState fun state =>
    state.modifyTop fun activation =>
      { activation with globals := activation.globals.insert symbol b }

/-- Makes all trigger context variables. -/
def createTriggerGlobals (o : Overlay) (snapshot : Snapshot) : Overlay :=
  (snapshot.extents.filter isTriggerExtent).foldl
    (fun o extent =>
      extent.captures.foldl
        (fun o c =>
          ((c.symbols.getD []).filter (Text.startsWith · triggerVariable)).foldl
            (fun o symbol => o.createTriggerGlobal extent c symbol) o)
        o)
    o

/-! ## Texts -/

/-- Writes the text of an object anew. Plain values and strings keep theirs. -/
def refreshDisplay (store : Store) (b : BindingId) : Store :=
  let binding := store.get b
  if binding.reference.isNone || TypeName.isString binding.typeName then store
  else store.setValue b (store.display b)

/-- Writes the texts of all touched bindings and of all known objects anew. -/
def refreshDisplays (o : Overlay) : Overlay :=
  let targets := o.touched ++ o.state.references.values
  { o.mapStore fun store => targets.foldl refreshDisplay store with touched := [] }

/-- Names the child of a map after its key, and shows its value. -/
def namePair (store : Store) (pair : BindingId) : Store :=
  let textOf (name : String) := ((store.child? pair name).map fun b => (store.get b).value).getD ""
  store.modify pair fun binding =>
    { binding with name := textOf pairKey, value := textOf pairValue }

/-- Names all children of maps. -/
def namePairs (o : Overlay) : Overlay :=
  { o.mapStore fun store => o.pairs.foldl namePair store with pairs := [] }

end Overlay

/-- Writes a snapshot into a state. Trigger context variables are made only while a trigger runs. -/
def State.overlay (s : State) (snapshot : Snapshot) (runningTrigger : Bool) : State :=
  let o : Overlay := { state := s, strings := Overlay.stringsOf snapshot }
  let o := (o.refreshObjects snapshot).resolvePending.updateRoots snapshot
  let o := if runningTrigger then o.createTriggerGlobals snapshot else o
  o.refreshDisplays.namePairs.state

end Retrace
