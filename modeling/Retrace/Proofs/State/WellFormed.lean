import Retrace.Proofs.Replay.Turns
import Retrace.Proofs.State.Edits

/-!
# Well-formed states

Nothing in a state dangles. A binding stands in one place at most; a handle of a binding and the
binding name each other; every call on the stack has its variables, and they name a scope of static
variables that is there.

* `Statics.Sound`, `Statics.Extends`: scopes of classes are there and apart, and they stay.
* `State.Framed`: the calls on the stack and the variables of calls belong together.
* **`State.WellFormed`**: all of it, `State.WellFormed.edits` and the lemmas behind it show that it
  is kept.
-/

namespace Retrace

/-! ## Handles of calls -/

namespace Handles

variable {α : Type}

theorem get?_eq_none_iff (t : Handles α) (h : Nat) : t.get? h = none ↔ h ∉ t.keys := by
  unfold get? keys
  rw [List.lookup_eq_none_iff, List.mem_map]
  constructor
  · rintro hn ⟨e, he, rfl⟩
    simpa using hn e he
  · intro hn e he
    simpa using fun heq => hn ⟨e, he, Eq.symm heq⟩

theorem exists_of_mem_keys {t : Handles α} {h : Nat} (hk : h ∈ t.keys) :
    ∃ a, t.get? h = some a := by
  refine Option.ne_none_iff_exists'.1 fun hn => ?_
  exact (t.get?_eq_none_iff h).1 hn hk

theorem keys_create (t : Handles α) (a : α) : (t.create a).keys = t.keys ++ [t.next] :=
  List.map_append

theorem keys_update (t : Handles α) (h : Nat) (f : α → α) : (t.update h f).keys = t.keys :=
  List.map_map ..

theorem keys_remove (t : Handles α) (h : Nat) :
    (t.remove h).keys = t.keys.filter fun j => j ≠ h := by
  unfold keys remove
  rw [List.filter_map]
  rfl

end Handles

/-! ## Static variables -/

namespace Statics

/-- The scope has been made. -/
def HasScope (s : Statics) (i : ScopeId) : Prop := i.index < s.scopes.size

/-- The scope of a class is there, and different classes have different ones. -/
structure Sound (s : Statics) : Prop where
  has : ∀ {className i}, s.scopeOf? className = some i → s.HasScope i
  apart : ∀ {className className' i}, s.scopeOf? className = some i →
    s.scopeOf? className' = some i → className = className'

/-- All scopes are still there, and classes have the scopes they had. -/
structure Extends (s t : Statics) : Prop where
  hasScope : ∀ {i}, s.HasScope i → t.HasScope i
  scopeOf? : ∀ {className i}, s.scopeOf? className = some i → t.scopeOf? className = some i

variable {s t u : Statics}

theorem Extends.refl (s : Statics) : s.Extends s := ⟨id, id⟩

theorem Extends.trans (h : s.Extends t) (h' : t.Extends u) : s.Extends u where
  hasScope hi := h'.hasScope (h.hasScope hi)
  scopeOf? hc := h'.scopeOf? (h.scopeOf? hc)

theorem sound_empty : empty.Sound where
  has h := by cases h
  apart h := by cases h

theorem hasScope_createDetached (s : Statics) (i : ScopeId) :
    s.createDetached.2.HasScope i ↔ s.HasScope i ∨ i = s.createDetached.1 := by
  cases i
  simp only [HasScope, createDetached, Array.size_push, Nat.lt_succ_iff_lt_or_eq, ScopeId.mk.injEq]

theorem extends_createDetached (s : Statics) : s.Extends s.createDetached.2 where
  hasScope hi := (s.hasScope_createDetached _).2 (.inl hi)
  scopeOf? hc := hc

theorem Sound.createDetached (h : s.Sound) : s.createDetached.2.Sound where
  has hc := (s.hasScope_createDetached _).2 (.inl (h.has hc))
  apart := h.apart

theorem scopeOf?_register (s : Statics) (className c : String) :
    (s.register className).2.scopeOf? c =
      if c = className then some (s.register className).1 else s.scopeOf? c := by
  unfold register
  cases h : s.scopeOf? className with
  | some i =>
    by_cases hc : c = className
    · rw [if_pos hc, hc, h]
    · rw [if_neg hc]
  | none => exact Table.get?_insert ..

theorem extends_register (s : Statics) (className : String) :
    s.Extends (s.register className).2 where
  hasScope {i} hi := by
    unfold register
    split
    · exact hi
    · exact (s.hasScope_createDetached i).2 (.inl hi)
  scopeOf? {c i} hc := by
    rw [scopeOf?_register]
    split
    · next h =>
      subst h
      simp only [register, hc]
    · exact hc

theorem Sound.hasScope_register (h : s.Sound) (className : String) :
    (s.register className).2.HasScope (s.register className).1 := by
  unfold register
  split
  · next hc => exact h.has hc
  · exact (s.hasScope_createDetached _).2 (.inr rfl)

theorem Sound.register (h : s.Sound) (className : String) : (s.register className).2.Sound := by
  -- the scope of the class is the one it had, or has been no scope
  have own : ∀ {c i}, s.scopeOf? c = some i → c ≠ className → (s.register className).1 ≠ i := by
    intro c i hc hne e
    unfold Statics.register at e
    split at e
    · next j hj =>
      subst e
      exact hne (h.apart hc hj)
    · subst e
      exact Nat.lt_irrefl _ (h.has hc)
  refine ⟨fun {c i} hc => ?_, fun {c d i} hc hd => ?_⟩
  · rw [scopeOf?_register] at hc
    split at hc
    · cases hc
      exact h.hasScope_register className
    · exact (s.extends_register className).hasScope (h.has hc)
  · rw [scopeOf?_register] at hc hd
    split at hc <;> split at hd
    · next h₁ h₂ => rw [h₁, h₂]
    · next h₂ => exact absurd (Option.some.inj hc) (own hd h₂)
    · next h₁ _ => exact absurd (Option.some.inj hd) (own hc h₁)
    · exact h.apart hc hd

theorem extends_insert (s : Statics) (i : ScopeId) (name : String) (b : BindingId) :
    s.Extends (s.insert i name b) where
  hasScope hi := by
    show _ < (s.scopes.modify _ _).size
    rw [Array.size_modify]
    exact hi
  scopeOf? hc := hc

theorem Sound.insert (h : s.Sound) (i : ScopeId) (name : String) (b : BindingId) :
    (s.insert i name b).Sound where
  has hc := (s.extends_insert i name b).hasScope (h.has hc)
  apart := h.apart

end Statics

namespace State

variable {s s' : State}

/-! ## Calls -/

/-- The frames on the stack are the calls that have variables, with falling numbers. A call carries
the name of its frame, and its scope of static variables is there. -/
structure Framed (s : State) : Prop where
  calls : s.activations.keys = (s.stack.map Frame.id).reverse
  signature : ∀ {frame activation}, frame ∈ s.stack →
    s.activations.get? frame.id = some activation → activation.signature = frame.name
  scope : ∀ {id activation}, s.activations.get? id = some activation →
    s.statics.HasScope activation.statics
  statics : s.statics.Sound

namespace Framed

theorem empty : State.empty.Framed where
  calls := rfl
  signature h := by cases h
  scope h := by cases h
  statics := Statics.sound_empty

theorem mem_keys (h : s.Framed) {frame : Frame} (hf : frame ∈ s.stack) :
    frame.id ∈ s.activations.keys := by
  rw [h.calls, List.mem_reverse]
  exact List.mem_map_of_mem hf

theorem exists_activation (h : s.Framed) {frame : Frame} (hf : frame ∈ s.stack) :
    ∃ activation, s.activations.get? frame.id = some activation :=
  Handles.exists_of_mem_keys (h.mem_keys hf)

theorem id_lt_next (h : s.Framed) {frame : Frame} (hf : frame ∈ s.stack) :
    frame.id < s.activations.next :=
  s.activations.lt_next _ (h.mem_keys hf)

theorem falling (h : s.Framed) : (s.stack.map Frame.id).Pairwise (· > ·) := by
  have ordered : s.activations.keys.Pairwise (· < ·) := s.activations.ordered
  rw [h.calls, List.pairwise_reverse] at ordered
  exact ordered

theorem id_ne_top (h : s.Framed) {top frame : Frame} {below : List Frame}
    (hs : s.stack = top :: below) (hf : frame ∈ below) : frame.id ≠ top.id := by
  have hp := h.falling
  rw [hs, List.map_cons, List.pairwise_cons] at hp
  exact Nat.ne_of_lt (hp.1 _ (List.mem_map_of_mem hf))

theorem sameFrames (h : s.Framed) (same : s.SameFrames s') : s'.Framed where
  calls := by rw [same.keys, same.stack, h.calls]
  signature hf ha := by
    rw [same.stack] at hf
    obtain ⟨_, ha'⟩ := same.activation ha
    have hsig := h.signature hf ha'
    exact hsig
  scope ha := by
    rw [same.statics]
    obtain ⟨_, ha'⟩ := same.activation ha
    have hscope := h.scope ha'
    exact hscope
  statics := same.statics ▸ h.statics

theorem extend (h : s.Framed) {statics : Statics} (ext : s.statics.Extends statics)
    (sound : statics.Sound) : ({ s with statics } : State).Framed where
  calls := h.calls
  signature := h.signature
  scope ha := ext.hasScope (h.scope ha)
  statics := sound

theorem pushFrame (h : s.Framed) {scope : ScopeId} (hi : s.statics.HasScope scope)
    (signature className : String) (source : Locator) (line : Nat) :
    (s.pushFrame signature className scope source line).Framed where
  calls := by
    show (s.activations.create _).keys = _
    rw [Handles.keys_create, h.calls]
    exact (List.reverse_cons ..).symm
  signature {frame activation} hf ha := by
    change (s.activations.create _).get? frame.id = some activation at ha
    rw [Handles.get?_create] at ha
    rcases List.mem_cons.1 hf with rfl | hf
    · rw [if_pos rfl] at ha
      cases ha
      rfl
    · rw [if_neg (Nat.ne_of_lt (h.id_lt_next hf))] at ha
      exact h.signature hf ha
  scope {id activation} ha := by
    change (s.activations.create _).get? id = some activation at ha
    rw [Handles.get?_create] at ha
    split at ha
    · cases ha
      exact hi
    · exact h.scope ha
  statics := h.statics

theorem popFrame (h : s.Framed) : s.popFrame.Framed := by
  unfold State.popFrame
  split
  · exact h
  · next top below hs =>
    have kept : ∀ {id activation}, (s.activations.remove top.id).get? id = some activation →
        s.activations.get? id = some activation := by
      intro id activation ha
      rw [Handles.get?_remove] at ha
      split at ha
      · cases ha
      · exact ha
    refine ⟨?_, fun {frame activation} hf ha => ?_, fun ha => h.scope (kept ha), h.statics⟩
    · show (s.activations.remove top.id).keys = (below.map Frame.id).reverse
      rw [Handles.keys_remove, h.calls, hs, List.map_cons, List.reverse_cons, List.filter_append,
        List.filter_cons_of_neg (by simp), List.filter_nil, List.append_nil,
        List.filter_eq_self]
      intro id hid
      rw [List.mem_reverse, List.mem_map] at hid
      obtain ⟨frame, hf, rfl⟩ := hid
      simpa using h.id_ne_top hs hf
    · refine h.signature ?_ (kept ha)
      rw [hs]
      exact List.mem_cons_of_mem _ hf

theorem setLine (h : s.Framed) (line : Nat) : (s.setLine line).Framed := by
  unfold State.setLine
  split
  · exact h
  · next top below hs =>
    refine ⟨?_, fun {frame activation} hf ha => ?_, h.scope, h.statics⟩
    · rw [h.calls, hs]
      rfl
    · rcases List.mem_cons.1 hf with rfl | hf
      · have htop : top ∈ s.stack := by
          rw [hs]
          exact List.mem_cons_self
        have named : activation.signature = top.name := h.signature htop ha
        exact named
      · refine h.signature ?_ ha
        rw [hs]
        exact List.mem_cons_of_mem _ hf

theorem update (h : s.Framed) (id : Nat) {f : Activation → Activation}
    (signature : ∀ a, (f a).signature = a.signature) (statics : ∀ a, (f a).statics = a.statics) :
    ({ s with activations := s.activations.update id f } : State).Framed := by
  have old : ∀ {i activation}, (s.activations.update id f).get? i = some activation →
      ∃ a, s.activations.get? i = some a ∧ activation.signature = a.signature ∧
        activation.statics = a.statics := by
    intro i activation ha
    rw [Handles.get?_update, Option.map_eq_some_iff] at ha
    obtain ⟨a, ha, rfl⟩ := ha
    refine ⟨a, ha, ?_⟩
    split
    · exact ⟨signature a, statics a⟩
    · exact ⟨rfl, rfl⟩
  refine ⟨?_, fun hf ha => ?_, fun ha => ?_, h.statics⟩
  · show (s.activations.update id f).keys = _
    rw [Handles.keys_update, h.calls]
  · obtain ⟨a, ha, hsig, -⟩ := old ha
    rw [hsig]
    exact h.signature hf ha
  · obtain ⟨a, ha, -, hstat⟩ := old ha
    rw [hstat]
    exact h.scope ha

end Framed

/-! ## Declarations -/

/-- What a declaration does: nothing, or it makes a binding for a static variable, perhaps with a
new scope for its class, or for a local one of the current call. -/
inductive Declares (s : State) : State → Prop
  | nothing : s.Declares s
  | ofClass {statics : Statics} (ext : s.statics.Extends statics)
      (sound : s.statics.Sound → statics.Sound) (scope : ScopeId) (name type : String) :
      s.Declares
        { s with
          store := (s.store.declare name type).2
          statics := statics.insert scope name (s.store.declare name type).1 }
  | ofCall {frame : Frame} (top : s.top? = some frame) (name type : String) :
      s.Declares
        { s with
          store := (s.store.declare name type).2
          activations := s.activations.update frame.id fun activation =>
            { activation with
              locals := activation.locals.insert name (s.store.declare name type).1 } }

theorem declares_declare (s : State) (d : Declaration) : s.Declares (s.declare d) := by
  unfold State.declare
  split
  · exact .nothing
  · next activation ha =>
    split
    · dsimp only
      unfold staticScope
      split
      · next className _ =>
        exact .ofClass (s.statics.extends_register className) (fun h => h.register className) _ _ _
      · exact .ofClass (.refl _) id _ _ _
    · split
      · exact .nothing
      · obtain ⟨frame, htop, -⟩ := Option.bind_eq_some_iff.1 ha
        have hcall := Declares.ofCall htop d.name d.typeName
        dsimp only [modifyTop]
        rw [show ({ s with store := (s.store.declare d.name d.typeName).2 } : State).top? =
          some frame from htop]
        exact hcall

theorem Declares.numbered (h : s.Declares s') (hn : s.Numbered) : s'.Numbered := by
  cases h with
  | nothing => exact hn
  | _ => exact hn.of_handle rfl fun b => s.store.handle_create _ _ _ b

theorem Declares.framed (h : s.Declares s') (hf : s.Framed) : s'.Framed := by
  have created : ∀ store, ({ s with store } : State).Framed := fun _ =>
    hf.sameFrames (.of_eq rfl rfl rfl)
  cases h with
  | nothing => exact hf
  | ofClass ext sound =>
    exact (created _).extend (ext.trans (Statics.extends_insert ..))
      ((sound hf.statics).insert ..)
  | ofCall => exact (created _).update _ (fun _ => rfl) fun _ => rfl

/-! ## States -/

/-- **Nothing dangles**: bindings in places, collections of bindings, targets of handles, calls on
the stack and scopes of calls are all there; no binding is in two places; and handles and bindings
name each other. -/
structure WellFormed (s : State) : Prop where
  sound : s.Sound
  numbered : s.Numbered
  framed : s.Framed

namespace WellFormed

theorem empty : State.empty.WellFormed := ⟨sound_empty, numbered_empty, .empty⟩

/-- **Edits keep states well-formed.** -/
theorem edits (h : s.WellFormed) (e : s.Edits g s') : s'.WellFormed :=
  ⟨e.sound h.sound, e.numbered h.numbered, h.framed.sameFrames e.sameFrames⟩

theorem extend (h : s.WellFormed) {statics : Statics} (ext : s.statics.Extends statics)
    (sound : statics.Sound) (same : ∀ i, statics.get i = s.statics.get i) :
    ({ s with statics } : State).WellFormed where
  sound := (drops_statics same).sound h.sound
  numbered := h.numbered.of_handle rfl fun _ => rfl
  framed := h.framed.extend ext sound

theorem pushFrame (h : s.WellFormed) {scope : ScopeId} (hi : s.statics.HasScope scope)
    (signature className : String) (source : Locator) (line : Nat) :
    (s.pushFrame signature className scope source line).WellFormed where
  sound := (drops_pushFrame signature className scope source line).sound h.sound
  numbered := h.numbered.of_handle rfl fun _ => rfl
  framed := h.framed.pushFrame hi signature className source line

theorem popFrame (h : s.WellFormed) : s.popFrame.WellFormed where
  sound := drops_popFrame.sound h.sound
  numbered := by
    unfold State.popFrame
    split
    · exact h.numbered
    · exact h.numbered.of_handle rfl fun _ => rfl
  framed := h.framed.popFrame

theorem setLine (h : s.WellFormed) (line : Nat) : (s.setLine line).WellFormed where
  sound := (drops_setLine line).sound h.sound
  numbered := by
    unfold State.setLine
    split
    · exact h.numbered
    · exact h.numbered.of_handle rfl fun _ => rfl
  framed := h.framed.setLine line

theorem declare (h : s.WellFormed) (d : Declaration) : (s.declare d).WellFormed where
  sound := (s.step_declare d).sound h.sound
  numbered := (s.declares_declare d).numbered h.numbered
  framed := (s.declares_declare d).framed h.framed

theorem assign (h : s.WellFormed) (a : Assignment) : (s.assign a).WellFormed :=
  h.edits (edits_assign (g := false) h.sound a)

theorem createScope (h : s.WellFormed) (frame : Nat) (kind : ScopeKind) :
    ({ s with handles := s.handles.create (.scope frame kind) } : State).WellFormed where
  sound := ⟨h.sound.has, h.sound.unique, h.sound.hasCollection, h.sound.keyed⟩
  numbered := by
    refine ⟨fun {b i} hb => ?_, fun {b i} ht => ?_⟩
    · have ht := h.numbered.ofHandle hb
      show (s.handles.create _).get? i = _
      rw [Handles.get?_create, if_neg, ht]
      rintro rfl
      rw [Handles.get?_next] at ht
      cases ht
    · change (s.handles.create _).get? i = _ at ht
      rw [Handles.get?_create] at ht
      split at ht
      · cases ht
      · exact h.numbered.ofTarget ht
  framed := h.framed.sameFrames (.of_eq rfl rfl rfl)

end WellFormed

end State

namespace Replay

/-- **Events keep states well-formed.** -/
theorem wellFormed_handle {r : Replay} (h : r.state.WellFormed) (e : Event) :
    (r.handle e).state.WellFormed := by
  cases e with
  | logStart =>
    have hs := h.extend r.state.statics.extends_createDetached h.framed.statics.createDetached
      fun i => r.state.statics.get_createDetached i
    have hi : r.state.statics.createDetached.2.HasScope r.state.statics.createDetached.1 :=
      (r.state.statics.hasScope_createDetached _).2 (.inr rfl)
    exact hs.pushFrame hi _ _ _ _
  | call signature =>
    have hs := h.extend (r.state.statics.extends_register (Signature.className signature))
      (h.framed.statics.register _) fun i => r.state.statics.get_register _ i
    exact hs.pushFrame (h.framed.statics.hasScope_register _) _ _ _ _
  | finish signature =>
    simp only [handle, handleFinish]
    split
    · exact h
    · split
      · exact h.popFrame
      · exact h
  | statement line => exact h.setLine _
  | debug line text => exact h
  | declaration d => exact h.declare d
  | assignment a => exact h.assign a
  | other => exact h

end Replay

end Retrace
