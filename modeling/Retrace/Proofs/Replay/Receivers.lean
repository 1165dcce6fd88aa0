import Retrace.Proofs.Replay.Calls
import Retrace.Proofs.Replay.Identities

/-!
# Receivers of calls

The local variable `this` of a call is its receiver. Once it refers to an object it stays with that
object as long as the call is active: no later line gives it another key, another collection or
another binding, whatever is assigned to it or to a name that ends in it. What it shows, and what
the object holds, may change.

* `Receiver`, `State.receiver?`: the object to which `this` of a call is bound.
* `State.Write.receiver?`: only a link of `this` itself could change it.
* `State.receiver?_assign`: no assignment links it.
* `State.KeepsReceivers`, `Replay.keepsReceivers_handle`: what every event keeps.
* **`Replay.receivers_performAll`**: the receivers of active calls in all live states of a run.
-/

namespace Retrace

/-- What `this` of a call is bound to. -/
structure Receiver where
  /-- The binding that `this` denotes. -/
  binding : BindingId
  /-- The key of its object. -/
  key : String
  /-- The collection of its children. -/
  collection : CollectionId
  deriving DecidableEq

namespace State

variable {s s' s'' : State} {id : Nat} {bound : Receiver}

/-- What `this` of the call with the given frame is bound to, once it refers to an object. -/
def receiver? (s : State) (id : Nat) : Option Receiver :=
  (s.slot? (.localVar id "this")).bind fun b =>
    (s.store.get b).reference.map fun key => ⟨b, key, (s.store.get b).children⟩

theorem receiver?_eq_some_iff : s.receiver? id = some bound ↔
    s.slot? (.localVar id "this") = some bound.binding ∧
      (s.store.get bound.binding).reference = some bound.key ∧
      (s.store.get bound.binding).children = bound.collection := by
  obtain ⟨b, key, c⟩ := bound
  simp only [receiver?, Option.bind_eq_some_iff, Option.map_eq_some_iff, Receiver.mk.injEq]
  constructor
  · rintro ⟨b, hslot, key, href, rfl, rfl, rfl⟩
    exact ⟨hslot, href, rfl⟩
  · rintro ⟨hslot, href, rfl⟩
    exact ⟨b, hslot, key, href, rfl, rfl, rfl⟩

theorem isSome_activation_of_receiver? (h : s.receiver? id = some bound) :
    ∃ a, s.activations.get? id = some a := by
  have hslot := (receiver?_eq_some_iff.1 h).1
  obtain ⟨a, ha, -⟩ := Option.bind_eq_some_iff.1 hslot
  exact ⟨a, ha⟩

/-! ## Writes -/

/-- **Only a link of `this` itself** could bind it to something else. -/
theorem Write.receiver? {e : Effect} (w : s.Write e s') (hs : s.Sound)
    (he : e ≠ .link (.localVar id "this")) (h : s.receiver? id = some bound) :
    s'.receiver? id = some bound := by
  obtain ⟨hslot, href, hchildren⟩ := receiver?_eq_some_iff.1 h
  have hsame : (s'.store.get bound.binding).reference = (s.store.get bound.binding).reference ∧
      (s'.store.get bound.binding).children = (s.store.get bound.binding).children := by
    by_cases hx : e.slot = .localVar id "this"
    · cases w with
      | relabel slot same others reference children =>
        cases hx
        cases slot.symm.trans hslot
        exact ⟨reference, children⟩
      | link =>
        cases hx
        exact absurd rfl he
      | place vacant =>
        cases hx
        rw [vacant] at hslot
        cases hslot
      | repoint => cases hx
    · rw [w.get_of_slot hs hslot hx]
      exact ⟨rfl, rfl⟩
  exact receiver?_eq_some_iff.2
    ⟨w.slot_of_some hslot, hsame.1.trans href, hsame.2.trans hchildren⟩

theorem Writes.receiver? (w : s.Writes (· ≠ .link (.localVar id "this")) s') (hs : s.Sound)
    (h : s.receiver? id = some bound) : s'.receiver? id = some bound :=
  (w.invariant (I := fun t => t.Sound ∧ t.receiver? id = some bound)
    (fun he hw h => ⟨hw.sound h.1, hw.receiver? h.1 he h.2⟩) ⟨hs, h⟩).2

/-! ## Assignments -/

section Assign

variable {key : String} {entry : BindingId}

theorem ne_link_of_mem_writtenFields {fields : List (String × Literal)} {e : Effect}
    (he : e.slot ∈ s.writtenFields entry fields) : e ≠ .link (.localVar id "this") := by
  rintro rfl
  obtain ⟨_, _, hfield⟩ := field_of_mem_writtenFields he
  cases hfield

theorem receiver?_assignObject (hs : s.Sound) (he : s.slot? (.object key) = some entry)
    (v : Literal) (h : s.receiver? id = some bound) :
    (s.assignObject entry v).receiver? id = some bound :=
  (assignObject_writes hs he v (by simp) (fun _ _ he => ne_link_of_mem_writtenFields he)
    (by simp)).receiver? hs h

theorem receiver?_assignField (hs : s.Sound) (he : s.slot? (.object key) = some entry)
    (leaf : String) (v : Literal) (h : s.receiver? id = some bound) :
    (s.assignField entry leaf v).receiver? id = some bound :=
  (assignField_writes hs he v (by simp) fun _ _ he => ne_link_of_mem_writtenFields he).receiver?
    hs h

/-- A variable is joined to an object only if it is called otherwise, or is bound to none yet. -/
theorem receiver?_join (hs : s.Sound) (he : s.slot? (.object key) = some entry) {b : BindingId}
    {leaf : String} (hb : (∃ frame, s.slot? (.localVar frame leaf) = some b) ∨
      ∃ i, s.slot? (.static i leaf) = some b) (h : s.receiver? id = some bound) :
    (s.join b entry key leaf).receiver? id = some bound := by
  obtain ⟨hslot, href, -⟩ := receiver?_eq_some_iff.1 h
  by_cases hthis : b = bound.binding
  · -- the receiver itself: it is called `this`, and bound already
    subst hthis
    have hleaf : leaf = "this" := by
      rcases hb with ⟨frame, hb⟩ | ⟨i, hb⟩
      · cases hs.unique hslot hb
        rfl
      · cases hs.unique hslot hb
    rw [join, if_pos ⟨hleaf, by rw [href]; rfl⟩]
    exact h
  · obtain ⟨x, hvariable, hx⟩ : ∃ x : Slot, x.IsVariable ∧ s.slot? x = some b := by
      rcases hb with ⟨frame, hb⟩ | ⟨i, hb⟩
      · exact ⟨.localVar frame leaf, trivial, hb⟩
      · exact ⟨.static i leaf, trivial, hb⟩
    have hne : x ≠ .localVar id "this" := by
      rintro rfl
      exact hthis (Option.some.inj (hx.symm.trans hslot))
    exact (join_writes hs hx hvariable.ne_object he leaf (by simpa using hne) (by simp)).receiver?
      hs h

/-- **An assignment leaves every receiver bound as it is**, by whatever name, value and key. -/
theorem receiver?_assign (hs : s.Sound) (a : Assignment) (h : s.receiver? id = some bound) :
    (s.assign a).receiver? id = some bound := by
  have shown : ∀ {b}, s.assigned a = .variable b → ∀ text,
      (s.mapStore (·.setValue b text)).receiver? id = some bound := by
    intro b hb text
    obtain ⟨x, -, hx, -⟩ := slot?_of_assignee hb
    exact (setValue_writes hs hx text (by simp)).receiver? hs h
  cases hr : a.reference with
  | none =>
    rw [assign_of_keyless hr]
    split
    · next b hb => exact shown hb _
    · exact h
    · exact h
  | some key =>
    -- the entry of the object is there before anything else is written
    have w := referenceEntry_writes (P := (· ≠ .link (.localVar id "this"))) s key (by simp)
    have hs' := w.sound hs
    have h' := w.receiver? hs h
    have he := (slot?_referenceEntry s key _).trans (if_pos rfl)
    rw [assign_of_key hr]
    dsimp only
    rcases hassigned : s.assigned a with b | _ | _
    · dsimp only
      split
      · exact shown hassigned _
      · have w' := assignObject_writes (P := fun _ => True) hs' he (Literal.parse a.value) trivial
          (fun _ _ _ => trivial) fun _ _ _ _ => trivial
        have hwritten := fun x => (w'.slot_of_some (x := x) (b := b)) ∘ w.slot_of_some
        refine receiver?_join (w'.sound hs') (w'.slot_of_some he) ?_
          (receiver?_assignObject hs' he _ h')
        exact (slot?_leaf_of_assignee hassigned).imp
          (fun ⟨frame, hx, _⟩ => ⟨frame, hwritten _ hx⟩) fun ⟨i, hx⟩ => ⟨i, hwritten _ hx⟩
    · exact receiver?_assignField hs' he _ _ h'
    · exact receiver?_assignObject hs' he _ h'

end Assign

/-! ## Events -/

/-- **Calls that stay active keep their receivers.** -/
structure KeepsReceivers (s s' : State) : Prop extends s.Endures s' where
  receivers : ∀ {id bound a}, s.receiver? id = some bound → s'.activations.get? id = some a →
    s'.receiver? id = some bound

namespace KeepsReceivers

theorem refl (s : State) : s.KeepsReceivers s := ⟨.refl s, fun h _ => h⟩

theorem trans (h : s.KeepsReceivers s') (h' : s'.KeepsReceivers s'') : s.KeepsReceivers s'' where
  toEndures := h.toEndures.trans h'.toEndures
  receivers hbound ha'' := by
    -- the call was active in between
    obtain ⟨a, ha⟩ := isSome_activation_of_receiver? hbound
    have hlt := Nat.lt_of_lt_of_le (Handles.lt_next_of_get? ha) h.next
    obtain ⟨a', ha', -⟩ := h'.scope hlt ha''
    exact h'.receivers (h.receivers hbound ha') ha''

theorem of_get (h : s.Endures s')
    (same : ∀ {x b}, s.slot? x = some b → s'.store.get b = s.store.get b) :
    s.KeepsReceivers s' where
  toEndures := h
  receivers hbound ha' := by
    obtain ⟨hslot, href, hchildren⟩ := receiver?_eq_some_iff.1 hbound
    obtain ⟨a, ha, hthis⟩ := Option.bind_eq_some_iff.1 hslot
    have hget := same hslot
    refine receiver?_eq_some_iff.2 ⟨?_, by rw [hget, href], by rw [hget, hchildren]⟩
    exact Option.bind_eq_some_iff.2 ⟨_, ha', h.locals ha ha' hthis⟩

end KeepsReceivers

end State

namespace Replay

/-- **Every event keeps the receivers of calls that stay active.** -/
theorem keepsReceivers_handle {r : Replay} (e : Event) (h : r.state.Sound) :
    r.state.KeepsReceivers (r.handle e).state := by
  have endures := endures_handle e h
  have step := r.step_handle e
  cases step with
  | drop _ drops => exact .of_get endures fun _ => by rw [drops.store]
  | declare drops _ new =>
    refine .of_get endures fun {x b} hb => ?_
    have hhas := h.has hb
    rw [← drops.store] at hhas ⊢
    exact new.others b fun heq => new.fresh (heq ▸ hhas)
  | assign a => exact ⟨endures, fun hbound _ => State.receiver?_assign h a hbound⟩

theorem keepsReceivers_idle {e : Option Event} {s s' : State} (h : s.Idle e s') :
    s.KeepsReceivers s' := by
  refine .of_get (endures_idle h) fun _ => ?_
  cases h with
  | scope => rfl
  | pop => rw [State.drops_popFrame.store]

/-! ## Runs -/

/-- **A receiver stays bound.** However advances, overlays of any snapshots and looks at scopes are
mixed: when `this` of a call refers to an object in some live state of the run, then in every later
one in which the frame of the call is still on the stack, `this` is the same binding, with the same
key and the same collection. -/
theorem receivers_performAll (config : Config) (resolver : Resolver) (lines : List String)
    (ops : List Operation) :
    (statesAlong ops (fresh config resolver lines)).Pairwise fun s s' =>
      ∀ frame ∈ s'.stack, ∀ bound, s.receiver? frame.id = some bound →
        s'.receiver? frame.id = some bound := by
  have hwf := (wellFormed_fresh config resolver lines).live
  have keeps := (course_turnsAlong ops (fresh config resolver lines)).pairwise
    State.KeepsReceivers.refl State.KeepsReceivers.trans keepsReceivers_handle keepsReceivers_idle
    hwf.sound
  refine (List.pairwise_cons.1 keeps).2.imp_of_mem fun {s s'} _ hs' h frame hf bound hbound => ?_
  obtain ⟨a, ha⟩ := (wellFormed_statesAlong hwf ops s' hs').framed.exists_activation hf
  exact h.receivers hbound ha

/-- An object is bound to `this`, and others are assigned to it afterwards, by two names. -/
def rebindingLog : List String :=
  ["62.0 APEX_CODE,FINEST",
    "0|METHOD_ENTRY|[1]|1|A.f()",
    "0|VARIABLE_SCOPE_BEGIN|[2]|this|A|true|false",
    "0|VARIABLE_ASSIGNMENT|[2]|this|\x7b\x7d|0x1",
    "0|STATEMENT_EXECUTE|[2]",
    "0|VARIABLE_ASSIGNMENT|[3]|this|\x7b\x22x\x22:1\x7d|0x2",
    "0|VARIABLE_ASSIGNMENT|[3]|o.this|\x7b\x7d|0x3",
    "0|STATEMENT_EXECUTE|[3]"]

set_option maxRecDepth 100000 in
/-- Behind its first assignment `this` refers to the first object, and so it does in the end. -/
theorem receivers_rebindingLog :
    let states := statesAlong [.advance, .advance, .advance]
      (fresh {} (fun _ => none) rebindingLog)
    ∃ s s' bound, states[7]? = some s ∧ states[16]? = some s' ∧ bound.key = "0x1" ∧
      s.receiver? 1001 = some bound ∧ s'.receiver? 1001 = some bound := by
  intro states
  have key := List.pairwise_iff_getElem.1
    (receivers_performAll {} (fun _ => none) rebindingLog [.advance, .advance, .advance])
  obtain ⟨hlength, hbound, hactive⟩ : states.length = 17 ∧
      (states[7]?.bind (·.receiver? 1001)).map (·.key) = some "0x1" ∧
      ∃ s' ∈ states[16]?, ∃ frame ∈ s'.stack, frame.id = 1001 := by
    decide +kernel
  obtain ⟨bound, hbound, hkey⟩ := Option.map_eq_some_iff.1 hbound
  obtain ⟨s, hs, hbound⟩ := Option.bind_eq_some_iff.1 hbound
  obtain ⟨s', hs', frame, hframe, hid⟩ := hactive
  refine ⟨s, s', bound, hs, hs', hkey, hbound, ?_⟩
  obtain ⟨hlt, rfl⟩ := List.getElem?_eq_some_iff.1 hs
  obtain ⟨hlt', rfl⟩ := List.getElem?_eq_some_iff.1 hs'
  rw [← hid] at hbound ⊢
  exact key 7 16 hlt hlt' (by decide) frame hframe bound hbound

end Replay

end Retrace
