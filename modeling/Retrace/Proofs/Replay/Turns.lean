import Retrace.Proofs.State.Assignments
import Retrace.Replay.Advance

/-!
# Turns of a replay

A replay takes one turn for each line. An assignment is a sequence of writes; a declaration makes
one binding; everything else at most drops variables. So what assignments, declarations and drops
keep holds in every state of every replay.

* `State.Drops`, `State.Step`: what an event does to the places of bindings.
* **`Replay.step_handle`**: events do nothing else.
* `Turn`, `Replay.turns`: the turns of the first advances of a replay.
* **`Replay.invariant_advances`**: what turns keep, advances keep.
-/

namespace Retrace

namespace State

/-- Nothing is written; variables may go. -/
structure Drops (s s' : State) : Prop where
  store : s'.store = s.store
  references : s'.references = s.references
  slots : ∀ x b, s'.slot? x = some b → s.slot? x = some b

/-- What an event does to the places of bindings. -/
inductive Step (s : State) : Event → State → Prop
  | drop {e : Event} {s' : State} (quiet : ∀ a, e ≠ .assignment a) (drops : s.Drops s') :
      s.Step e s'
  | declare {d : Declaration} {s₁ s' : State} {x : Slot} {b : BindingId} (drops : s.Drops s₁)
      (isVariable : x.IsVariable) (new : s₁.Places x b s') : s.Step (.declaration d) s'
  | assign (a : Assignment) : s.Step (.assignment a) (s.assign a)

variable {s s' s'' : State}

theorem Drops.refl (s : State) : s.Drops s := ⟨rfl, rfl, fun _ _ h => h⟩

theorem Drops.trans (h : s.Drops s') (h' : s'.Drops s'') : s.Drops s'' where
  store := h'.store.trans h.store
  references := h'.references.trans h.references
  slots x b hx := h.slots x b (h'.slots x b hx)

theorem Drops.sound (h : s.Drops s') (hs : s.Sound) : s'.Sound where
  has hx := by
    rw [h.store]
    exact hs.has (h.slots _ _ hx)
  unique hx hy := hs.unique (h.slots _ _ hx) (h.slots _ _ hy)
  hasCollection hb := by
    rw [h.store] at hb ⊢
    exact hs.hasCollection hb
  keyed hx := by
    rw [h.store]
    exact hs.keyed (h.slots _ _ hx)

/-! ## Calls -/

theorem drops_statics {statics : Statics} (h : ∀ i, statics.get i = s.statics.get i) :
    s.Drops { s with statics } where
  store := rfl
  references := rfl
  slots x b hx := by
    cases x with
    | static i name =>
      have hi : (statics.get i).get? name = some b := hx
      rw [h] at hi
      exact hi
    | _ => exact hx

theorem drops_pushFrame (signature className : String) (statics : ScopeId) (source : Locator)
    (line : Nat) : s.Drops (s.pushFrame signature className statics source line) where
  store := rfl
  references := rfl
  slots x b hx := by
    cases x with
    | localVar frame name | globalVar frame name =>
      simp only [slot?, pushFrame, Handles.get?_create] at hx ⊢
      split at hx
      · simp at hx
      · exact hx
    | _ => exact hx

theorem drops_popFrame : s.Drops s.popFrame := by
  unfold popFrame
  split
  · exact .refl s
  · next frame stack _ =>
    refine ⟨rfl, rfl, fun x b hx => ?_⟩
    cases x with
    | localVar frame name | globalVar frame name =>
      simp only [slot?, Handles.get?_remove] at hx ⊢
      split at hx
      · simp at hx
      · exact hx
    | _ => exact hx

theorem drops_setLine (line : Nat) : s.Drops (s.setLine line) := by
  unfold setLine
  split
  · exact .refl s
  · exact ⟨rfl, rfl, fun x b hx => by cases x <;> exact hx⟩

/-! ## Declarations -/

/-- A new binding of the store takes the place of a variable, if anything does. -/
theorem places_create {x : Slot} (hx : x.IsVariable) {name type value : String}
    (store : s'.store = (s.store.create name type value).2)
    (slots : ∀ y, y ≠ x → s'.slot? y = s.slot? y)
    (slot : ∀ c, s'.slot? x = some c → c = (s.store.create name type value).1 ∨
      s.slot? x = some c) : s.Places x (s.store.create name type value).1 s' where
  fresh := s.store.not_has_create name type value
  slots := slots
  tables c _ := by rw [store, Store.collection_create]
  slot := slot
  has c := by
    rw [store]
    exact s.store.has_create name type value c
  hasCollection c h := by
    rw [store]
    exact (s.store.hasCollection_create name type value c).2 (.inl h)
  others c h := by
    rw [store]
    exact s.store.get_create_of_ne name type value h
  childless n := by
    have hne : ∀ c, Slot.field c n ≠ x := by
      rintro c rfl
      exact hx
    have hown : ¬ s.store.HasCollection ⟨s.store.collections.size⟩ := Nat.lt_irrefl _
    rw [store, Store.get_create_self, slots _ (hne _)]
    simp [slot?, s.store.collection_of_not_has hown]
  ownCollection := by
    rw [store, Store.get_create_self]
    exact (s.store.hasCollection_create name type value _).2 (.inr rfl)
  keyed key h := absurd h (hx.ne_object key)
  plain _ := by rw [store, Store.get_create_self]

theorem places_static (scope : ScopeId) (name type : String) :
    s.Places (.static scope name) (s.store.declare name type).1
      { s with
        store := (s.store.declare name type).2
        statics := s.statics.insert scope name (s.store.declare name type).1 } := by
  have h := fun i n => s.statics.get?_get_insert scope i name n (s.store.declare name type).1
  refine places_create (x := .static scope name) trivial rfl (fun y hy => ?_) fun c hc => ?_
  · cases y with
    | static i n =>
      refine (h i n).resolve_right ?_
      rintro ⟨rfl, rfl, -⟩
      exact hy rfl
    | field c n => exact congrArg (·.get? n) (s.store.collection_create name type nullText c)
    | _ => rfl
  · rcases h scope name with h | ⟨-, -, h⟩
    · exact .inr (h.symm.trans hc)
    · exact .inl (Option.some.inj (hc.symm.trans h))

theorem places_local {frame : Nat} {activation : Activation}
    (ha : s.activations.get? frame = some activation) (name type : String) :
    s.Places (.localVar frame name) (s.store.declare name type).1
      { s with
        store := (s.store.declare name type).2
        activations := s.activations.update frame fun activation =>
          { activation with
            locals := activation.locals.insert name (s.store.declare name type).1 } } := by
  refine places_create (x := .localVar frame name) trivial rfl (fun y hy => ?_) fun c hc => ?_
  · cases y with
    | localVar f n =>
      simp only [slot?, Handles.get?_update]
      by_cases hf : f = frame
      · subst hf
        have hn : n ≠ name := fun e => hy (e ▸ rfl)
        simp [ha, Table.get?_insert, hn]
      · simp [hf]
    | globalVar f n =>
      simp only [slot?, Handles.get?_update]
      cases s.activations.get? f with
      | none => rfl
      | some a =>
        by_cases hf : f = frame <;> simp [hf]
    | field c n => exact congrArg (·.get? n) (s.store.collection_create name type nullText c)
    | _ => rfl
  · simp only [slot?, Handles.get?_update, ha, Option.map_some, if_pos, Option.bind_some,
      Table.get?_insert] at hc
    exact .inl (Option.some.inj hc).symm

theorem get_staticScope (activation : Activation) (owner : Option String) (i : ScopeId) :
    (s.staticScope activation owner).2.get i = s.statics.get i := by
  unfold staticScope
  split
  · exact s.statics.get_register _ i
  · rfl

theorem step_declare (d : Declaration) : s.Step (.declaration d) (s.declare d) := by
  unfold declare
  split
  · exact .drop (by simp) (.refl s)
  · next activation ha =>
    split
    · exact .declare (drops_statics (get_staticScope activation (Text.ownerAndLeaf d.name).1))
        (x := .static _ _) trivial (places_static _ _ d.typeName)
    · split
      · exact .drop (by simp) (.refl s)
      · simp only [topActivation?, Option.bind_eq_some_iff] at ha
        obtain ⟨frame, ht, ha⟩ := ha
        have hm : ∀ (store : Store) f, ({ s with store } : State).modifyTop f =
            { s with store, activations := s.activations.update frame.id f } := by
          intro store f
          simp only [modifyTop, top?] at ht ⊢
          rw [ht]
        dsimp only
        rw [hm]
        exact .declare (.refl s) (x := .localVar frame.id d.name) trivial
          (places_local ha d.name d.typeName)

/-- **Soundness** of every step. -/
theorem Step.sound {e : Event} (h : s.Step e s') (hs : s.Sound) : s'.Sound := by
  cases h with
  | drop _ drops => exact drops.sound hs
  | declare drops _ new => exact (drops.sound hs).of_places new
  | assign a =>
    exact (assign_writes (P := fun _ => True) hs a (fun _ _ _ => trivial) (fun _ _ _ => trivial)
      fun _ _ _ => trivial).sound hs

end State

/-- What a replay does with one line: the states before and behind it, and what it reports. -/
structure Turn where
  /-- The state before the line. -/
  before : State
  /-- What the line reports. -/
  event : Event
  /-- The state behind the line. -/
  after : State

namespace Replay

/-! ## Events -/

/-- **Events do nothing else** to the places of bindings. -/
theorem step_handle (r : Replay) (e : Event) : r.state.Step e (r.handle e).state := by
  cases e with
  | logStart =>
    exact .drop (by simp) ((State.drops_statics fun i => r.state.statics.get_createDetached i).trans
      (State.drops_pushFrame ..))
  | call signature =>
    exact .drop (by simp) ((State.drops_statics fun i => r.state.statics.get_register _ i).trans
      (State.drops_pushFrame ..))
  | finish signature =>
    simp only [handle, handleFinish]
    split
    · exact .drop (by simp) (.refl _)
    · split
      · exact .drop (by simp) State.drops_popFrame
      · exact .drop (by simp) (.refl _)
  | statement line => exact .drop (by simp) (State.drops_setLine _)
  | debug line text => exact .drop (by simp) (.refl _)
  | declaration d => exact State.step_declare d
  | assignment a => exact .assign a
  | other => exact .drop (by simp) (.refl _)

/-! ## What lines leave -/

theorem handle_eq (r : Replay) (e : Event) :
    ∃ state messages, r.handle e = { r with state, messages } := by
  cases e with
  | finish signature =>
    simp only [handle, handleFinish]
    repeat' split
    all_goals exact ⟨_, _, rfl⟩
  | _ => exact ⟨_, _, rfl⟩

theorem echo_eq (r : Replay) (line : String) (e : Event) :
    ∃ messages, r.echo line e = { r with messages } := by
  unfold echo
  split <;> exact ⟨_, rfl⟩

theorem classify_snd (r : Replay) (line : String) : ∃ script lastMarker messages,
    (r.classify line).2 = { r with script, lastMarker, messages } := by
  unfold classify noteMarker noteScript say
  repeat' split
  all_goals exact ⟨_, _, _, rfl⟩

theorem step_snd (r : Replay) (line : String) : ∃ state messages, (r.step line).2 =
    { (r.classify line).2 with state, messages, current := some (r.classify line).1 } := by
  obtain ⟨messages, hecho⟩ := (r.classify line).2.echo_eq line (r.classify line).1
  obtain ⟨state, messages', hhandle⟩ :=
    ((r.classify line).2.echo line (r.classify line).1).handle_eq (r.classify line).1
  refine ⟨state, messages', ?_⟩
  simp only [step]
  rw [hhandle, hecho]

@[simp] theorem state_classify (r : Replay) (line : String) :
    (r.classify line).2.state = r.state := by
  obtain ⟨_, _, _, h⟩ := r.classify_snd line
  rw [h]

@[simp] theorem state_echo (r : Replay) (line : String) (e : Event) :
    (r.echo line e).state = r.state := by
  obtain ⟨_, h⟩ := r.echo_eq line e
  rw [h]

theorem step_step (r : Replay) (line : String) :
    r.state.Step (r.step line).1 (r.step line).2.state := by
  have h := step_handle ((r.classify line).2.echo line (r.classify line).1) (r.classify line).1
  rw [state_echo, state_classify] at h
  exact h

/-! ## Turns -/

/-- A replay that has not begun. -/
def fresh (config : Config) (resolver : Resolver) (lines : List String) : Replay :=
  { config, resolver, lines }

/-- The replay behind the given number of advances. -/
def advances : Nat → Replay → Replay
  | 0, r => r
  | n + 1, r => advances n r.advance

/-- The state that the log has rebuilt, also while an overlay is shown. -/
def live (r : Replay) : State := r.saved.getD r.state

/-- The turns of going through lines up to a pause. -/
def turnsThrough : List String → Replay → List Turn
  | [], _ => []
  | line :: rest, r =>
    if line = "" then turnsThrough rest r.moveOn
    else
      let (e, r') := r.moveOn.step line
      ⟨r.state, e, r'.state⟩ :: if e.pauses then [] else turnsThrough rest r'

/-- The turns of the first advances. -/
def turns : Nat → Replay → List Turn
  | 0, _ => []
  | n + 1, r =>
    let r' := r.revertOverlay.2.dropLogFrame
    turnsThrough (r'.lines.drop r'.nextIndex) r' ++ turns n r.advance

theorem step_of_mem_turnsThrough {ls : List String} {r : Replay} {t : Turn}
    (ht : t ∈ turnsThrough ls r) : t.before.Step t.event t.after := by
  induction ls generalizing r with
  | nil => cases ht
  | cons line rest ih =>
    simp only [turnsThrough] at ht
    split at ht
    · exact ih ht
    · rcases List.mem_cons.1 ht with rfl | ht
      · exact r.moveOn.step_step line
      · split at ht
        · cases ht
        · exact ih ht

theorem step_of_mem_turns {n : Nat} {r : Replay} {t : Turn} (ht : t ∈ r.turns n) :
    t.before.Step t.event t.after := by
  induction n generalizing r with
  | zero => cases ht
  | succ n ih => exact (List.mem_append.1 ht).elim step_of_mem_turnsThrough ih

@[simp] theorem saved_step (r : Replay) (line : String) : (r.step line).2.saved = r.saved := by
  obtain ⟨_, _, hstep⟩ := r.step_snd line
  obtain ⟨_, _, _, hclassify⟩ := r.classify_snd line
  rw [hstep, hclassify]

theorem saved_consume (ls : List String) (r : Replay) : (consume ls r).saved = r.saved := by
  induction ls generalizing r with
  | nil => rfl
  | cons line rest ih =>
    simp only [consume]
    split
    · exact ih r.moveOn
    · split
      · exact saved_step ..
      · exact (ih _).trans (saved_step ..)

@[simp] theorem saved_revertOverlay (r : Replay) : r.revertOverlay.2.saved = none := by
  unfold revertOverlay
  split
  · rfl
  · assumption

@[simp] theorem state_revertOverlay (r : Replay) : r.revertOverlay.2.state = r.live := by
  unfold revertOverlay live
  split
  · next h => simp [h]
  · next h => simp [h]

@[simp] theorem saved_dropLogFrame (r : Replay) : r.dropLogFrame.saved = r.saved := by
  unfold dropLogFrame
  split <;> rfl

@[simp] theorem saved_advance (r : Replay) : r.advance.saved = none := by
  simp [advance, saved_consume]

@[simp] theorem revertOverlay_advance (r : Replay) : r.advance.revertOverlay = (false, r.advance) := by
  unfold revertOverlay
  rw [saved_advance]

theorem live_advance (r : Replay) : r.advance.live = r.advance.state := by
  simp [live]

/-! ## Invariants -/

section Invariant

variable {I : State → Prop}

/-- What every turn of going through lines keeps holds in all their states. -/
theorem invariant_consume {ls : List String} {r : Replay} (h : I r.state)
    (step : ∀ t ∈ turnsThrough ls r, I t.before → I t.after) :
    (∀ t ∈ turnsThrough ls r, I t.before ∧ I t.after) ∧ I (consume ls r).state := by
  induction ls generalizing r with
  | nil => exact ⟨fun _ ht => absurd ht List.not_mem_nil, h⟩
  | cons line rest ih =>
    simp only [turnsThrough, consume] at step ⊢
    split at step
    · next hl =>
      rw [if_pos hl, if_pos hl]
      exact ih h step
    · next hl =>
      rw [if_neg hl, if_neg hl]
      have hline : I (r.moveOn.step line).2.state := step _ List.mem_cons_self h
      split
      · next hp =>
        refine ⟨fun t ht => ?_, hline⟩
        rw [List.mem_singleton] at ht
        subst ht
        exact ⟨h, hline⟩
      · next hp =>
        rw [if_neg hp] at step
        obtain ⟨hts, hc⟩ := ih hline fun t ht => step t (List.mem_cons_of_mem _ ht)
        refine ⟨fun t ht => ?_, hc⟩
        rcases List.mem_cons.1 ht with rfl | ht
        · exact ⟨h, hline⟩
        · exact hts t ht

/-- **What every turn keeps holds in all states of the first advances.** -/
theorem invariant_advances (drops : ∀ {s s'}, State.Drops s s' → I s → I s') {n : Nat}
    {r : Replay} (h : I r.live) (step : ∀ t ∈ r.turns n, I t.before → I t.after) :
    (∀ t ∈ r.turns n, I t.before ∧ I t.after) ∧ I (r.advances n).live := by
  induction n generalizing r with
  | zero => exact ⟨fun _ ht => absurd ht List.not_mem_nil, h⟩
  | succ n ih =>
    simp only [turns, advances] at step ⊢
    have h' : I r.revertOverlay.2.dropLogFrame.state := by
      unfold dropLogFrame
      rw [← state_revertOverlay] at h
      split
      · exact drops State.drops_popFrame h
      · exact h
    obtain ⟨hts, hc⟩ := invariant_consume h' fun t ht => step t (List.mem_append_left _ ht)
    have hl : I r.advance.live := by
      rw [live_advance]
      exact hc
    obtain ⟨hts', hc'⟩ := ih hl fun t ht => step t (List.mem_append_right _ ht)
    exact ⟨fun t ht => (List.mem_append.1 ht).elim (hts t) (hts' t), hc'⟩

end Invariant

theorem sound_fresh (config : Config) (resolver : Resolver) (lines : List String) :
    (fresh config resolver lines).live.Sound :=
  State.sound_empty

/-- **Every state of a replay is sound.** -/
theorem sound_advances (config : Config) (resolver : Resolver) (lines : List String) (n : Nat) :
    (∀ t ∈ (fresh config resolver lines).turns n, t.before.Sound ∧ t.after.Sound) ∧
      ((fresh config resolver lines).advances n).live.Sound :=
  invariant_advances State.Drops.sound (sound_fresh config resolver lines) fun _ ht =>
    (step_of_mem_turns ht).sound

theorem saved_advances (n : Nat) {r : Replay} (h : r.saved = none) :
    (r.advances n).saved = none := by
  induction n generalizing r with
  | zero => exact h
  | succ n ih => exact ih r.saved_advance

theorem live_advances_fresh (config : Config) (resolver : Resolver) (lines : List String)
    (n : Nat) : ((fresh config resolver lines).advances n).live =
      ((fresh config resolver lines).advances n).state := by
  rw [live, saved_advances n rfl, Option.getD_none]

end Replay

end Retrace
