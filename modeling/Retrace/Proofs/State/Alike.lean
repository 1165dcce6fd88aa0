import Retrace.Proofs.Access
import Retrace.State.Assign
import Retrace.State.Declare

/-!
# States up to the numbers of handles

Looking at scopes uses up handles, so the bindings of a state that was looked at get other numbers
later on. Nothing else of a state depends on that.

* `Binding.unnumbered`, `State.Alike`: states that agree but for the numbers of their handles.
* `Store.Alike.modify`, `State.Alike.ensureHandle`, …: the parts of events keep states alike.
* **`State.Alike.assign`**, **`State.Alike.declare`**: so do assignments and declarations.
-/

namespace Retrace

/-- The binding without the number of its handle. -/
def Binding.unnumbered (b : Binding) : Binding := { b with handle := b.handle.map fun _ => 0 }

theorem Binding.unnumbered_eq_iff {a b : Binding} :
    a.unnumbered = b.unnumbered ↔ a.name = b.name ∧ a.typeName = b.typeName ∧ a.value = b.value ∧
      a.reference = b.reference ∧ a.handle.isSome = b.handle.isSome ∧ a.children = b.children := by
  have h : ∀ o o' : Option Nat, (o.map fun _ => 0) = (o'.map fun _ => 0) ↔ o.isSome = o'.isSome := by
    intro o o'
    cases o <;> cases o' <;> simp
  simp only [unnumbered, Binding.mk.injEq, h]

namespace Store

/-- Stores that agree but for the numbers of handles. -/
structure Alike (s t : Store) : Prop where
  size : s.bindings.size = t.bindings.size
  collections : s.collections = t.collections
  get : ∀ b, (s.get b).unnumbered = (t.get b).unnumbered

namespace Alike

variable {s t : Store}

theorem refl (s : Store) : s.Alike s := ⟨rfl, rfl, fun _ => rfl⟩

theorem trans {u : Store} (h : s.Alike t) (h' : t.Alike u) : s.Alike u where
  size := h.size.trans h'.size
  collections := h.collections.trans h'.collections
  get b := (h.get b).trans (h'.get b)

theorem has (h : s.Alike t) (b : BindingId) : s.Has b ↔ t.Has b := by
  unfold Has
  rw [h.size]

theorem collection (h : s.Alike t) (c : CollectionId) : s.collection c = t.collection c := by
  unfold Store.collection
  rw [h.collections]

theorem value (h : s.Alike t) (b : BindingId) : (s.get b).value = (t.get b).value :=
  (Binding.unnumbered_eq_iff.1 (h.get b)).2.2.1

theorem typeName (h : s.Alike t) (b : BindingId) : (s.get b).typeName = (t.get b).typeName :=
  (Binding.unnumbered_eq_iff.1 (h.get b)).2.1

theorem reference (h : s.Alike t) (b : BindingId) : (s.get b).reference = (t.get b).reference :=
  (Binding.unnumbered_eq_iff.1 (h.get b)).2.2.2.1

theorem getChildren (h : s.Alike t) (b : BindingId) : (s.get b).children = (t.get b).children :=
  (Binding.unnumbered_eq_iff.1 (h.get b)).2.2.2.2.2

theorem child? (h : s.Alike t) (b : BindingId) (name : String) :
    s.child? b name = t.child? b name := by
  unfold Store.child? Store.children
  rw [h.getChildren, h.collection]

theorem modify (h : s.Alike t) (b : BindingId) {f g : Binding → Binding}
    (hfg : ∀ x y : Binding, x.unnumbered = y.unnumbered → (f x).unnumbered = (g y).unnumbered) :
    (s.modify b f).Alike (t.modify b g) where
  size := by
    have := h.size
    simpa [Store.modify]
  collections := h.collections
  get c := by
    by_cases hc : c = b
    · subst hc
      by_cases hs : s.Has c
      · rw [get_modify_self f hs, get_modify_self g ((h.has c).1 hs)]
        exact hfg _ _ (h.get c)
      · have ht : ¬ t.Has c := fun ht => hs ((h.has c).2 ht)
        unfold Has at hs ht
        simp [Store.get, Store.modify, hs, ht]
    · rw [get_modify_of_ne f hc, get_modify_of_ne g hc, h.get]

theorem modifyCollection (h : s.Alike t) (c : CollectionId)
    (f : Table BindingId → Table BindingId) :
    (s.modifyCollection c f).Alike (t.modifyCollection c f) where
  size := h.size
  collections := by
    unfold Store.modifyCollection
    rw [h.collections]
  get := h.get

theorem setValue (h : s.Alike t) (b : BindingId) (text : String) :
    (s.setValue b text).Alike (t.setValue b text) := by
  refine h.modify b fun x y hxy => ?_
  rw [Binding.unnumbered_eq_iff] at hxy ⊢
  simp [hxy]

theorem share (h : s.Alike t) (b source : BindingId) :
    (s.share b source).Alike (t.share b source) := by
  refine h.modify b fun x y hxy => ?_
  rw [Binding.unnumbered_eq_iff] at hxy ⊢
  simp [hxy, h.getChildren source]

theorem create (h : s.Alike t) (name type value : String) :
    (s.create name type value).1 = (t.create name type value).1 ∧
      (s.create name type value).2.Alike (t.create name type value).2 := by
  have hfst : (s.create name type value).1 = (t.create name type value).1 := by
    unfold Store.create
    rw [h.size]
  refine ⟨hfst, ?_, ?_, fun b => ?_⟩
  · have := h.size
    simpa [Store.create]
  · unfold Store.create
    rw [h.collections]
  · by_cases hb : b = (s.create name type value).1
    · rw [hb, get_create_self, hfst, get_create_self, h.collections]
    · rw [get_create_of_ne _ _ _ _ hb, get_create_of_ne _ _ _ _ (hfst ▸ hb), h.get]

theorem childOrCreate (h : s.Alike t) (b : BindingId) (name : String) :
    (s.childOrCreate b name).1 = (t.childOrCreate b name).1 ∧
      (s.childOrCreate b name).2.Alike (t.childOrCreate b name).2 := by
  cases hc : s.child? b name with
  | some c =>
    have hc' := (h.child? b name).symm.trans hc
    rw [childOrCreate_of_some s b name hc, childOrCreate_of_some t b name hc']
    exact ⟨rfl, h⟩
  | none =>
    have hc' := (h.child? b name).symm.trans hc
    rw [childOrCreate_of_none s b name hc, childOrCreate_of_none t b name hc']
    obtain ⟨hfst, hsnd⟩ := h.create name "" ""
    refine ⟨hfst, ?_⟩
    rw [h.getChildren b, hfst]
    exact hsnd.modifyCollection _ _

end Alike

end Store

namespace State

/-- The bindings that the handles given to the user expand to, in the order of the handles. -/
def expandables (s : State) : List BindingId :=
  s.handles.live.filterMap fun e =>
    match e.2 with
    | .binding b => some b
    | .scope _ _ => none

/-- **States that agree but for the numbers of handles**, and for the handles of scopes. -/
structure Alike (s t : State) : Prop where
  store : s.store.Alike t.store
  statics : s.statics = t.statics
  references : s.references = t.references
  stack : s.stack = t.stack
  activations : s.activations = t.activations
  expandables : s.expandables = t.expandables

namespace Alike

variable {s t : State}

theorem refl (s : State) : s.Alike s := ⟨.refl _, rfl, rfl, rfl, rfl, rfl⟩

theorem trans {u : State} (h : s.Alike t) (h' : t.Alike u) : s.Alike u where
  store := h.store.trans h'.store
  statics := h.statics.trans h'.statics
  references := h.references.trans h'.references
  stack := h.stack.trans h'.stack
  activations := h.activations.trans h'.activations
  expandables := h.expandables.trans h'.expandables

/-! ## Parts of events -/

theorem mapStore (h : s.Alike t) {f g : Store → Store} (hfg : (f s.store).Alike (g t.store)) :
    (s.mapStore f).Alike (t.mapStore g) :=
  { h with store := hfg }

theorem setValue (h : s.Alike t) (b : BindingId) (text : String) :
    (s.mapStore (·.setValue b text)).Alike (t.mapStore (·.setValue b text)) :=
  h.mapStore (h.store.setValue b text)

theorem topActivation? (h : s.Alike t) : s.topActivation? = t.topActivation? := by
  unfold State.topActivation? State.top?
  rw [h.stack, h.activations]

theorem ensureHandle (h : s.Alike t) (b : BindingId) :
    (s.ensureHandle b).Alike (t.ensureHandle b) := by
  have hh := (Binding.unnumbered_eq_iff.1 (h.store.get b)).2.2.2.2.1
  unfold State.ensureHandle
  cases hs : (s.store.get b).handle with
  | some n =>
    cases ht : (t.store.get b).handle with
    | some m => exact h
    | none => simp [hs, ht] at hh
  | none =>
    cases ht : (t.store.get b).handle with
    | some m => simp [hs, ht] at hh
    | none =>
      refine { h with store := h.store.modify b fun x y hxy => ?_, expandables := ?_ }
      · rw [Binding.unnumbered_eq_iff] at hxy ⊢
        simp [hxy]
      · have he : ∀ u : State, (u.handles.create (.binding b)).live.filterMap
            (fun e => match e.2 with | .binding b => some b | .scope _ _ => none) =
            u.expandables ++ [b] := by
          intro u
          simp [Handles.create, State.expandables]
        have h' := h.expandables
        show (s.handles.create (.binding b)).live.filterMap _ =
          (t.handles.create (.binding b)).live.filterMap _
        rw [he s, he t, h']

theorem childOrCreate (h : s.Alike t) (b : BindingId) (name : String) :
    (s.childOrCreate b name).1 = (t.childOrCreate b name).1 ∧
      (s.childOrCreate b name).2.Alike (t.childOrCreate b name).2 := by
  obtain ⟨hfst, hsnd⟩ := h.store.childOrCreate b name
  exact ⟨hfst, { h with store := hsnd }⟩

theorem referenceEntry (h : s.Alike t) (key : String) :
    (s.referenceEntry key).1 = (t.referenceEntry key).1 ∧
      (s.referenceEntry key).2.Alike (t.referenceEntry key).2 := by
  unfold State.referenceEntry
  rw [h.references]
  cases t.references.get? key with
  | some entry => exact ⟨rfl, h⟩
  | none =>
    obtain ⟨hfst, hsnd⟩ := h.store.create "" "" ""
    refine ⟨hfst, { h with store := ?_, references := ?_ }⟩
    · show ((s.store.create "" "" "").2.modify (s.store.create "" "" "").1 _).Alike
        ((t.store.create "" "" "").2.modify (t.store.create "" "" "").1 _)
      rw [hfst]
      refine hsnd.modify _ fun x y hxy => ?_
      rw [Binding.unnumbered_eq_iff] at hxy ⊢
      simp [hxy]
    · show s.references.insert key (s.store.create "" "" "").1 =
        t.references.insert key (t.store.create "" "" "").1
      rw [h.references, hfst]

theorem link (h : s.Alike t) (child entry : BindingId) (key : String) :
    (s.link child entry key).Alike (t.link child entry key) := by
  have hv := h.store.value entry
  have ht := h.store.typeName entry
  have hl : (s.mapStore fun store => (store.share child entry).modify child fun binding =>
      { binding with
        reference := some key
        value := (s.store.get entry).value
        typeName := if binding.typeName = "" then (s.store.get entry).typeName
          else binding.typeName }).Alike
      (t.mapStore fun store => (store.share child entry).modify child fun binding =>
      { binding with
        reference := some key
        value := (t.store.get entry).value
        typeName := if binding.typeName = "" then (t.store.get entry).typeName
          else binding.typeName }) := by
    refine h.mapStore ((h.store.share child entry).modify child fun x y hxy => ?_)
    rw [Binding.unnumbered_eq_iff] at hxy ⊢
    simp [hxy, hv, ht]
  exact hl.ensureHandle child

theorem join (h : s.Alike t) (b entry : BindingId) (key leaf : String) :
    (s.join b entry key leaf).Alike (t.join b entry key leaf) := by
  unfold State.join
  rw [h.store.reference b]
  split
  · exact h
  · have hv := h.store.value entry
    have hj : (s.mapStore fun store => (store.share b entry).modify b fun binding =>
        { binding with reference := some key, value := (s.store.get entry).value }).Alike
        (t.mapStore fun store => (store.share b entry).modify b fun binding =>
        { binding with reference := some key, value := (t.store.get entry).value }) := by
      refine h.mapStore ((h.store.share b entry).modify b fun x y hxy => ?_)
      rw [Binding.unnumbered_eq_iff] at hxy ⊢
      simp [hxy, hv]
    exact hj.ensureHandle b

/-! ## Decoding -/

theorem knownObject? (h : s.Alike t) (v : Literal) : s.knownObject? v = t.knownObject? v := by
  unfold State.knownObject?
  rw [h.references]

theorem decodeLeaf (h : s.Alike t) (child : BindingId) (v : Literal) :
    (s.decodeLeaf child v).Alike (t.decodeLeaf child v) := by
  unfold State.decodeLeaf
  rw [h.knownObject?]
  split
  · exact h.link child _ _
  · exact h.setValue child _

mutual

theorem decodeInto {s t : State} (h : s.Alike t) (child : BindingId) (v : Literal) :
    (s.decodeInto child v).Alike (t.decodeInto child v) := by
  match v with
  | .object fields =>
    rw [State.decodeInto, State.decodeInto]
    exact decodeFields ((h.setValue child "").ensureHandle child) child fields
  | .quoted _ | .bare _ | .array _ =>
    rw [State.decodeInto, State.decodeInto]
    exact h.decodeLeaf child _

theorem decodeFields {s t : State} (h : s.Alike t) (parent : BindingId)
    (fields : List (String × Literal)) :
    (s.decodeFields parent fields).Alike (t.decodeFields parent fields) := by
  match fields with
  | [] =>
    rw [State.decodeFields, State.decodeFields]
    exact h
  | (name, v) :: fields =>
    rw [State.decodeFields, State.decodeFields]
    obtain ⟨hfst, hsnd⟩ := h.childOrCreate parent name
    dsimp only
    rw [hfst]
    exact decodeFields (decodeInto hsnd _ v) parent fields

end

/-! ## Assignments -/

theorem assignee (h : s.Alike t) (owner : Option String) (leaf : String) :
    s.assignee owner leaf = t.assignee owner leaf := by
  unfold State.assignee State.unqualified? State.local?
  rw [h.topActivation?, h.statics]

theorem showsRaw (h : s.Alike t) (b : BindingId) (v : Literal) :
    s.showsRaw b v = t.showsRaw b v := by
  unfold State.showsRaw
  rw [h.store.typeName]

theorem assignObject (h : s.Alike t) (entry : BindingId) (v : Literal) :
    (s.assignObject entry v).Alike (t.assignObject entry v) := by
  unfold State.assignObject
  split
  · exact (h.decodeFields entry _).setValue entry ""
  · rw [h.knownObject?]
    split
    · split
      · exact h
      · exact h.mapStore (h.store.share entry _)
    · exact h.setValue entry _

theorem assignField (h : s.Alike t) (entry : BindingId) (leaf : String) (v : Literal) :
    (s.assignField entry leaf v).Alike (t.assignField entry leaf v) := by
  unfold State.assignField
  obtain ⟨hfst, hsnd⟩ := h.childOrCreate entry leaf
  dsimp only
  rw [hfst]
  exact (hsnd.decodeInto _ v).setValue entry ""

/-- **Assignments keep states alike.** -/
theorem assign (h : s.Alike t) (a : Assignment) : (s.assign a).Alike (t.assign a) := by
  unfold State.assign
  dsimp only
  rw [h.assignee]
  split
  · exact h.setValue _ _
  · next b key _ _ =>
    rw [h.showsRaw]
    split
    · exact h.setValue b _
    · obtain ⟨hfst, hsnd⟩ := h.referenceEntry key
      rw [hfst]
      exact (hsnd.assignObject _ _).join b _ key _
  · next key _ _ =>
    obtain ⟨hfst, hsnd⟩ := h.referenceEntry key
    rw [hfst]
    exact hsnd.assignField _ _ _
  · next key _ _ =>
    obtain ⟨hfst, hsnd⟩ := h.referenceEntry key
    rw [hfst]
    exact hsnd.assignObject _ _
  · exact h

/-! ## Calls and declarations -/

theorem popFrame (h : s.Alike t) : s.popFrame.Alike t.popFrame := by
  unfold State.popFrame
  rw [h.stack, h.activations]
  split
  · exact h
  · exact { h with stack := rfl, activations := rfl }

theorem setLine (h : s.Alike t) (line : Nat) : (s.setLine line).Alike (t.setLine line) := by
  unfold State.setLine
  rw [h.stack]
  split
  · exact h
  · exact { h with stack := rfl }

theorem pushFrame (h : s.Alike t) (statics : Statics) (signature className : String)
    (scope : ScopeId) (source : Locator) (line : Nat) :
    (({ s with statics } : State).pushFrame signature className scope source line).Alike
      (({ t with statics } : State).pushFrame signature className scope source line) := by
  unfold State.pushFrame
  dsimp only
  rw [h.stack, h.activations]
  exact { h with statics := rfl, stack := rfl, activations := rfl }

/-- **Declarations keep states alike.** -/
theorem declare (h : s.Alike t) (d : Declaration) : (s.declare d).Alike (t.declare d) := by
  unfold State.declare
  rw [h.topActivation?]
  split
  · exact h
  · next activation _ =>
    have hscope : ∀ owner, s.staticScope activation owner = t.staticScope activation owner := by
      intro owner
      unfold State.staticScope
      rw [h.statics]
    split
    · obtain ⟨hfst, hsnd⟩ := h.store.create (Text.ownerAndLeaf d.name).2 d.typeName nullText
      dsimp only [Store.declare]
      rw [hscope, hfst]
      exact { h with store := hsnd, statics := rfl }
    · split
      · exact h
      · obtain ⟨hfst, hsnd⟩ := h.store.create d.name d.typeName nullText
        dsimp only [Store.declare, State.modifyTop, State.top?]
        rw [hfst, h.stack, h.activations]
        split
        · exact { h with store := hsnd, stack := rfl, activations := rfl }
        · exact { h with store := hsnd, stack := rfl, activations := rfl }

end Alike

end State

end Retrace
