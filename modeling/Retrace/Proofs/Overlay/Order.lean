import Retrace.Proofs.Overlay.Outcome

/-!
# The order of a snapshot

The extents of a snapshot may come in any order. The bindings, collections and handles that an
overlay makes then get other numbers, and nothing else changes: what is told of two such overlays is
the same, so what can be seen from the same place is the same as well, however deep one looks.

* `Picture`, `Store.picture`: what can be seen of a binding, down to some depth.
* `Overlay.Twins`: bindings of two overlays of which the same is told.
* `Overlay.mirrors_twins`: texts are made of the same.
* `Overlay.picture_texts`: so twins look the same in the end.
* **`State.reordered_overlay`**: two overlays by the same extents show the same in all places.
-/

namespace Retrace

/-! ## Pictures -/

/-- What can be seen of a binding, down to some depth. -/
inductive Picture
  /-- What the binding shows, and its children under their names, in their order. -/
  | of (label : Label) (children : List (String × Picture))

/-- What can be seen of a binding: what it shows, and its children down to the given depth. -/
def Store.picture (s : Store) : Nat → BindingId → Picture
  | 0, b => .of (s.get b).label []
  | depth + 1, b => .of (s.get b).label ((s.children b).map (s.picture depth)).entries

namespace Overlay

variable {s : State} {r : Report} {o o' : Overlay} {b b' : BindingId} {l : Look}

/-! ## Twins -/

/-- **Twins**: bindings of two overlays of which the same is told, and of their children. -/
def Twins (s : State) (r : Report) (o o' : Overlay) (b b' : BindingId) : Prop :=
  ∃ l site, o.Fits s b l ∧ o'.Fits s b' l ∧ At s r o site (o.state.store.get b).children ∧
    At s r o' site (o'.state.store.get b').children

/-- What is told of a binding says where its children are, unless it is the child of a map. -/
theorem exists_site (separate : s.Separate) (r : Report) {h : Home} (hne : h ≠ .own) :
    ∃ site, ∀ {o b l}, Told s r o → o.Fits s b l → l.home = h →
      At s r o site (o.state.store.get b).children := by
  cases h with
  | own => exact absurd rfl hne
  | fresh => exact ⟨.fresh, fun _ f hl => .fresh (hl ▸ f.home : Houses s _ .fresh _).2⟩
  | kept d =>
    by_cases hx : ∃ x, r.objects x ∧ s.Keeps x.2.address d
    · -- the collection is that of a captured object
      obtain ⟨x, hx, entry, he, hd⟩ := hx
      refine ⟨.object x, fun {o b l} t f hl => ?_⟩
      obtain ⟨he', hchildren⟩ := t.above.touches.entry t.above.base.orderly he
      have hc : (o.state.store.get b).children = (o.state.store.get entry).children :=
        (hl ▸ f.home : Houses s o.state (.kept d) _).1.trans (hd.trans hchildren.symm)
      rw [hc]
      exact .object hx he'
    · refine ⟨.kept d, fun {o b l} _ f hl => ?_⟩
      obtain ⟨hc, has⟩ := (hl ▸ f.home : Houses s o.state (.kept d) _)
      rw [hc]
      exact .kept has fun x hobj hkeeps => hx ⟨x, hobj, hkeeps⟩
  | object address =>
    by_cases hx : ∃ x, r.objects x ∧ address = x.2.address
    · obtain ⟨x, hx, rfl⟩ := hx
      refine ⟨.object x, fun {o b l} _ f hl => ?_⟩
      obtain ⟨entry, he, hc⟩ := (hl ▸ f.home : Houses s o.state (.object x.2.address) _)
      rw [hc]
      exact .object hx he
    · -- the object is known from below
      have new : ∀ x, r.objects x → address ≠ x.2.address := fun x hobj h => hx ⟨x, hobj, h⟩
      cases hs : s.references.get? address with
      | none =>
        refine ⟨.fresh, fun {o b l} t f hl => ?_⟩
        obtain ⟨entry, he, -⟩ := (hl ▸ f.home : Houses s o.state (.object address) _)
        rw [t.known new, hs] at he
        cases he
      | some entry =>
        refine ⟨.kept (s.store.get entry).children, fun {o b l} t f hl => ?_⟩
        obtain ⟨entry', he, hc⟩ := (hl ▸ f.home : Houses s o.state (.object address) _)
        rw [t.known new, hs] at he
        obtain rfl := Option.some.inj he
        have base := t.above.base
        rw [hc, (t.above.touches.entry base.orderly hs).2]
        refine .kept (base.hasCollection (base.has (x := .object address) hs)) fun x hobj hkeeps => ?_
        exact new x hobj (separate ⟨entry, hs, rfl⟩ hkeeps)

section Told

variable (t : Told s r o) (t' : Told s r o') (separate : s.Separate)
include t t' separate

theorem twins_of_fits (f : o.Fits s b l) (f' : o'.Fits s b' l) (h : l.home ≠ .own) :
    Twins s r o o' b b' := by
  obtain ⟨site, hsite⟩ := exists_site separate r h
  exact ⟨l, site, f, f', hsite t f rfl, hsite t' f' rfl⟩

/-- **Children of twins are twins**, name by name. -/
theorem Twins.child (h : Twins s r o o' b b') (name : String) :
    Option.Rel (Twins s r o o') (o.state.store.child? b name)
      (o'.state.store.child? b' name) := by
  obtain ⟨-, site, -, -, hat, hat'⟩ := h
  have d := t.depicts hat
  have d' := t'.depicts hat'
  cases hform : (site.form s r).get? name with
  | none =>
    have none : ((site.form s r).map (·.resolve r.types)).get? name = none := by
      rw [Table.get?_map, hform]
      rfl
    unfold Store.child? Store.children
    rw [eq_none_of_rel (d.get? name) none, eq_none_of_rel (d'.get? name) none]
    exact .none
  | some k =>
    have some : ((site.form s r).map (·.resolve r.types)).get? name = some (k.resolve r.types) := by
      rw [Table.get?_map, hform]
      rfl
    obtain ⟨x, hx, f⟩ := d.exists_fits some
    obtain ⟨x', hx', f'⟩ := d'.exists_fits some
    suffices htwins : Twins s r o o' x x' by
      unfold Store.child? Store.children
      change (o.state.store.collection _).get? name = _ at hx
      change (o'.state.store.collection _).get? name = _ at hx'
      rw [hx, hx']
      exact .some htwins
    rcases Site.home_form hform with hne | ⟨y, entries, index, rfl, hmap, hi, rfl, rfl⟩
    · exact twins_of_fits t t' separate f f' (Look.home_resolve hne r.types)
    · -- children of maps have collections of their own
      have he := List.getElem?_eq_getElem hi
      generalize (o.state.store.get b).children = c at hat hx
      generalize (o'.state.store.get b').children = c' at hat' hx'
      cases hat with
      | object captured known =>
        cases hat' with
        | object captured' known' =>
          exact ⟨_, .pair y entries[index] index, f, f', .pair captured known hmap he hx,
            .pair captured' known' hmap he hx'⟩

omit separate in
theorem Twins.keys (h : Twins s r o o' b b') :
    (o.state.store.children b).keys = (o'.state.store.children b').keys := by
  obtain ⟨-, site, -, -, hat, hat'⟩ := h
  exact (t.depicts hat).keys.trans (t'.depicts hat').keys.symm

/-- **Texts of twins are made of the same.** -/
theorem mirrors_twins :
    o.state.store.Mirrors o'.state.store (· ∈ o.pairs) (Twins s r o o') := by
  have label : ∀ {b b'}, Twins s r o o' b b' →
      (o'.state.store.get b').label = (o.state.store.get b).label := fun ⟨_, _, f, f', _⟩ =>
    f'.label.trans f.label.symm
  constructor
  case typeName => exact fun h => congrArg Label.typeName (label h)
  case reference => exact fun h => congrArg Label.reference (label h)
  case name => exact fun h _ => congrArg Label.name (label h)
  case value => exact fun h _ _ => congrArg Label.value (label h)
  case children =>
    exact fun h => Table.forall₂_values (h.keys t t') fun name => h.child t t' separate name
  case part => exact fun h name => h.child t t' separate name
  case pair => exact fun hp => (t.paired _ hp).typed
  case noPart => exact fun hp hname a => (t.paired _ hp).not_part hname a

/-! ## Texts -/

theorem Twins.label_of_not_pair (h : Twins s r o o' b b') (hb : b ∉ o.pairs) :
    (o.refreshDisplays.namePairs.state.store.get b).label =
      (o'.refreshDisplays.namePairs.state.store.get b').label := by
  obtain ⟨-, mirrors, hget⟩ := get_texts t.paired
  obtain ⟨-, mirrors', hget'⟩ := get_texts t'.paired
  have twins := mirrors_twins t t' separate
  have object := twins.isObject_iff h
  have display := twins.display h fun hp => absurd hp hb
  obtain ⟨l, -, f, f', -⟩ := h
  have hb' : b' ∉ o'.pairs := fun hp => hb (f.listed.2 (f'.listed.1 hp))
  have shown : b' ∈ o'.targets ∧ o'.state.store.IsObject b' ↔
      b ∈ o.targets ∧ o.state.store.IsObject b :=
    and_congr (f'.shown.trans f.shown.symm) object
  have label : (o.state.store.get b).label = (o'.state.store.get b').label :=
    f.label.trans f'.label.symm
  rw [hget, hget', if_neg hb, if_neg hb', mirrors.display rfl fun hp => absurd hp hb,
    mirrors'.display rfl fun hp => absurd hp hb', display]
  by_cases hshown : b ∈ o.targets ∧ o.state.store.IsObject b
  · rw [if_pos hshown, if_pos (shown.2 hshown)]
    exact congrArg (fun l : Label => { l with value := o.state.store.display b }) label
  · rw [if_neg hshown, if_neg (mt shown.1 hshown)]
    exact label

/-- **Twins show the same in the end.** -/
theorem Twins.label (h : Twins s r o o' b b') :
    (o.refreshDisplays.namePairs.state.store.get b).label =
      (o'.refreshDisplays.namePairs.state.store.get b').label := by
  by_cases hb : b ∈ o.pairs
  swap
  · exact h.label_of_not_pair t t' separate hb
  -- the child of a map shows what its key and its value show
  have part : ∀ name, name = pairKey ∨ name = pairValue →
      o.refreshDisplays.namePairs.state.store.partText b name =
        o'.refreshDisplays.namePairs.state.store.partText b' name := by
    intro name hname
    have hrel := h.child t t' separate name
    have visible : ∀ {x}, o.state.store.child? b name = some x → x ∉ o.pairs := fun hx hp =>
      (t.paired _ hp).not_part hname b hx
    unfold Store.partText
    rw [child?_texts t.paired, child?_texts t'.paired]
    revert hrel visible
    generalize o.state.store.child? b name = x, o'.state.store.child? b' name = x'
    rintro (hxx | _) visible
    · have same := hxx.label_of_not_pair t t' separate (visible rfl)
      exact congrArg Label.value same
    · rfl
  obtain ⟨-, -, hget⟩ := get_texts t.paired
  obtain ⟨-, -, hget'⟩ := get_texts t'.paired
  obtain ⟨l, -, f, f', -⟩ := h
  have hb' : b' ∈ o'.pairs := f'.listed.2 (f.listed.1 hb)
  have label : (o.state.store.get b).label = (o'.state.store.get b').label :=
    f.label.trans f'.label.symm
  rw [hget, hget', if_pos hb, if_pos hb', part pairKey (.inl rfl), part pairValue (.inr rfl)]
  exact congrArg (fun l : Label => { l with
    name := o'.refreshDisplays.namePairs.state.store.partText b' pairKey
    value := o'.refreshDisplays.namePairs.state.store.partText b' pairValue }) label

/-- **Twins look the same in the end**, however deep one looks. -/
theorem picture_texts (h : Twins s r o o' b b') (depth : Nat) :
    o.refreshDisplays.namePairs.state.store.picture depth b =
      o'.refreshDisplays.namePairs.state.store.picture depth b' := by
  induction depth generalizing b b' with
  | zero => exact congrArg (Picture.of · []) (h.label t t' separate)
  | succ depth ih =>
    have tables : o.refreshDisplays.namePairs.state.store.children b = o.state.store.children b :=
      Store.children_of_get (get_texts t.paired).1 (children_texts t.paired b)
    have tables' : o'.refreshDisplays.namePairs.state.store.children b' =
        o'.state.store.children b' :=
      Store.children_of_get (get_texts t'.paired).1 (children_texts t'.paired b')
    rw [Store.picture, Store.picture, h.label t t' separate, tables, tables']
    refine congrArg (fun table => Picture.of _ table.entries) (Table.ext_of_get? ?_ fun name => ?_)
    · rw [Table.keys_map, Table.keys_map, h.keys t t']
    · rw [Table.get?_map, Table.get?_map]
      exact map_eq_of_rel (h.child t t' separate name) ih

/-! ## Places -/

theorem twins_self {x : Slot} (hx : ∀ c name, x ≠ .field c name)
    (new : ∀ y, r.objects y → x ≠ .object y.2.address) (hb : s.slot? x = some b) :
    Twins s r o o' b b := by
  have base := t.above.base
  by_cases hroot : ∃ y, r.captured y ∧ s.root? y.2 = some b
  · obtain ⟨y, hy, hroot⟩ := hroot
    have known : ((s.look b).typed (some y.1.typeName)).home ≠ .own := Home.noConfusion
    exact twins_of_fits t t' separate (t.root hy hroot) (t'.root hy hroot)
      (Look.home_hold known r.strings r.types y.1 y.2)
  · have noRoot : ∀ y, r.captured y → s.root? y.2 ≠ some b := fun y hy h => hroot ⟨y, hy, h⟩
    have unowned : ∀ y, r.objects y → ¬ s.Owns y.2.address b := by
      intro y hy howns
      rcases howns.place base hb with heq | ⟨c, name, -, heq⟩
      · exact new y hy heq
      · exact hx c name heq
    refine twins_of_fits t t' separate (t.old (base.has hb) unowned noRoot)
      (t'.old (base.has hb) unowned noRoot) ?_
    exact Home.noConfusion

/-- **In every place but that of a child are twins**, or nothing. -/
theorem twins_of_slot {x : Slot} (hx : ∀ c name, x ≠ .field c name) :
    Option.Rel (Twins s r o o') (o.state.slot? x) (o'.state.slot? x) := by
  have base := t.above.base
  have frames := t.above.touches.sameFrames base
  have frames' := t'.above.touches.sameFrames base
  have below : o.state.slot? x = s.slot? x → o'.state.slot? x = s.slot? x →
      (∀ y, r.objects y → x ≠ .object y.2.address) →
        Option.Rel (Twins s r o o') (o.state.slot? x) (o'.state.slot? x) := by
    intro hold hold' new
    rw [hold, hold']
    cases hb : s.slot? x with
    | none => exact .none
    | some b => exact .some (twins_self t t' separate hx new hb)
  cases x with
  | field c name => exact absurd rfl (hx c name)
  | static | localVar =>
    exact below (frames.slot? trivial) (frames'.slot? trivial) fun _ _ => Slot.noConfusion
  | globalVar frame name =>
    by_cases hy : ∃ y, r.triggers y ∧ ∃ top, s.top? = some top ∧
        Slot.globalVar frame name = .globalVar top.id y.2.2
    · obtain ⟨y, hy, top, htop, heq⟩ := hy
      obtain ⟨b, hb, f⟩ := t.trigger htop hy
      obtain ⟨b', hb', f'⟩ := t'.trigger htop hy
      have new : ({ name := y.2.2, typeName := y.1.typeName } : Look).home ≠ .own :=
        Home.noConfusion
      rw [heq, hb, hb']
      exact .some (twins_of_fits t t' separate f f'
        (Look.home_hold new r.strings r.types y.1 y.2.1))
    · have other : ∀ y, r.triggers y → ∀ top, s.top? = some top →
          Slot.globalVar frame name ≠ .globalVar top.id y.2.2 := fun y hyt top htop h =>
        hy ⟨y, hyt, top, htop, h⟩
      exact below (t.global other) (t'.global other) fun _ _ => Slot.noConfusion
  | object key =>
    by_cases hy : ∃ y, r.objects y ∧ key = y.2.address
    · obtain ⟨y, hy, rfl⟩ := hy
      obtain ⟨b, hb, f⟩ := t.entry hy
      obtain ⟨b', hb', f'⟩ := t'.entry hy
      refine (congrArg₂ (Option.Rel _) hb hb').mpr (.some ?_)
      exact twins_of_fits t t' separate f f' Home.noConfusion
    · have new : ∀ y, r.objects y → key ≠ y.2.address := fun y hobj h => hy ⟨y, hobj, h⟩
      exact below (t.known new) (t'.known new) fun y hobj h => new y hobj (Slot.object.inj h)

end Told

end Overlay

/-! ## What is new -/

namespace State

variable {s s' s'' : State}

/-- New objects and new trigger variables come behind those that were there. -/
structure Appends (s s' : State) : Prop where
  objects : s.references.keys <+: s'.references.keys
  globals : ∀ {id activation}, s.activations.get? id = some activation →
    ∃ activation', s'.activations.get? id = some activation' ∧
      activation.globals.keys <+: activation'.globals.keys

namespace Appends

theorem of_eq (references : s'.references = s.references)
    (activations : s'.activations = s.activations) : s.Appends s' where
  objects := references ▸ List.prefix_refl _
  globals {_ a} ha := ⟨a, activations ▸ ha, List.prefix_refl _⟩

theorem trans (h : s.Appends s') (h' : s'.Appends s'') : s.Appends s'' where
  objects := h.objects.trans h'.objects
  globals ha := by
    obtain ⟨a', ha', hglobals⟩ := h.globals ha
    obtain ⟨a'', ha'', hglobals'⟩ := h'.globals ha'
    exact ⟨a'', ha'', hglobals.trans hglobals'⟩

end Appends

theorem Edit.appends {g : Bool} (e : s.Edit g s') : s.Appends s' := by
  cases e with
  | rewrite | collection | clear | create | child => exact .of_eq rfl rfl
  | number =>
    unfold ensureHandle
    split
    · exact .of_eq rfl rfl
    · exact .of_eq rfl rfl
  | entry key =>
    unfold referenceEntry
    split
    · exact .of_eq rfl rfl
    · exact ⟨Table.keys_prefix_insert .., fun {_ a} ha => ⟨a, ha, List.prefix_refl _⟩⟩
  | global allowed has unplaced name =>
    unfold insertGlobal modifyTop
    split
    · exact .of_eq rfl rfl
    · next frame _ =>
      refine ⟨List.prefix_refl _, fun {id a} ha => ?_⟩
      rw [Handles.get?_update, ha]
      refine ⟨_, rfl, ?_⟩
      split
      · exact Table.keys_prefix_insert ..
      · exact List.prefix_refl _

/-- **An overlay adds objects and trigger variables behind the others.** -/
theorem appends_overlay (hs : s.Sound) (snapshot : Snapshot) (runningTrigger : Bool) :
    s.Appends (s.overlay snapshot runningTrigger) :=
  (edits_overlay hs snapshot runningTrigger).invariant (fun e h => h.trans e.appends)
    (.of_eq rfl rfl)

end State

/-! ## The order of extents -/

theorem Snapshot.triggers_inj {snapshot : Snapshot}
    (distinct : (snapshot.captured.map (·.2.address)).Nodup)
    (triggers : ∀ x ∈ snapshot.triggers, ∀ y ∈ snapshot.triggers, x.2.2 = y.2.2 →
      x.2.1.address = y.2.1.address) :
    ∀ x ∈ snapshot.triggers, ∀ y ∈ snapshot.triggers, x.2.2 = y.2.2 → x = y := by
  have captured : ∀ x ∈ snapshot.triggers, (x.1, x.2.1) ∈ snapshot.captured := by
    intro x hx
    simp only [Snapshot.triggers, Snapshot.captured, List.mem_flatMap, List.mem_map,
      List.mem_filter] at hx ⊢
    obtain ⟨extent, ⟨hextent, -⟩, c, hc, symbol, -, rfl⟩ := hx
    exact ⟨extent, hextent, c, hc, rfl⟩
  intro x hx y hy hsymbol
  have same := List.inj_on_of_nodup_map distinct (captured x hx) (captured y hy)
    (triggers x hx y hy hsymbol)
  obtain ⟨hextent, hcapture⟩ := Prod.mk.inj same
  exact Prod.ext hextent (Prod.ext hcapture hsymbol)

/-- **The order of extents does not matter.** In a well-formed state whose objects have their
children in different collections, let two snapshots be written that have the same extents in
another order. They capture no address twice and no known object as a map; no two captured values
name the same variable first, and no two the same trigger variable. Then the calls, and the
variables that a log declares, are the same in both states, with bindings of the same ids; objects
and trigger variables that were there keep their order, and new ones come behind; and under every
key and in every variable of every call is the same to be seen, down to every depth: the same name,
type, text and reference, a handle or none, and the same children in the same order. -/
theorem State.reordered_overlay {s : State} (h : s.WellFormed) {snapshot snapshot' : Snapshot}
    (perm : snapshot.extents.Perm snapshot'.extents) (suits : snapshot.Suits s)
    (roots : (snapshot.captured.filterMap (s.root? ·.2)).Nodup)
    (triggers : ∀ x ∈ snapshot.triggers, ∀ y ∈ snapshot.triggers, x.2.2 = y.2.2 →
      x.2.1.address = y.2.1.address) (runningTrigger : Bool) :
    let t := s.overlay snapshot runningTrigger
    let t' := s.overlay snapshot' runningTrigger
    t.SameFrames t' ∧ s.Appends t ∧ s.Appends t' ∧
      ∀ x, (∀ c name, x ≠ .field c name) → ∀ depth,
        (t.slot? x).map (t.store.picture depth) = (t'.slot? x).map (t'.store.picture depth) := by
  intro t t'
  have suits' := suits.of_perm perm
  have roots' := ((Snapshot.captured_perm perm).filterMap (s.root? ·.2)).nodup_iff.1 roots
  have single := Snapshot.triggers_inj suits.distinct triggers
  have single' : ∀ x ∈ snapshot'.triggers, ∀ y ∈ snapshot'.triggers, x.2.2 = y.2.2 → x = y :=
    fun x hx y hy => single x ((Snapshot.triggers_perm perm).mem_iff.2 hx) y
      ((Snapshot.triggers_perm perm).mem_iff.2 hy)
  have told := Overlay.told_untold h suits roots single runningTrigger
  have told' := Overlay.told_untold h suits' roots' single' runningTrigger
  rw [← Overlay.report_perm h.sound perm suits runningTrigger] at told'
  have frames : s.SameFrames t := (edits_overlay h.sound snapshot runningTrigger).sameFrames
  have frames' : s.SameFrames t' := (edits_overlay h.sound snapshot' runningTrigger).sameFrames
  refine ⟨frames.symm.trans frames', appends_overlay h.sound snapshot runningTrigger,
    appends_overlay h.sound snapshot' runningTrigger, fun x hx depth => ?_⟩
  -- writing texts changes no place but those of children
  have same : t.slot? x = (Overlay.untold s snapshot runningTrigger).state.slot? x := by
    cases x with
    | field c name => exact absurd rfl (hx c name)
    | _ => rfl
  have same' : t'.slot? x = (Overlay.untold s snapshot' runningTrigger).state.slot? x := by
    cases x with
    | field c name => exact absurd rfl (hx c name)
    | _ => rfl
  rw [same, same']
  exact map_eq_of_rel (Overlay.twins_of_slot told told' suits.separate hx) fun twins =>
    Overlay.picture_texts told told' suits.separate twins depth

set_option maxRecDepth 100000 in
/-- The extents of a snapshot from last to first: the map is made before the field of the object
that refers to itself, so its binding and its child have other numbers. Both maps show the same, and
both have one child, which is called by the same string. -/
theorem State.reordered_keyedSnapshot :
    let s := ((Replay.fresh {} (fun _ => none) objectLog).performAll [.advance, .advance]).live
    let snapshot' : Snapshot := { extents := keyedSnapshot.extents.reverse }
    let t := s.overlay keyedSnapshot true
    let t' := s.overlay snapshot' true
    s.WellFormed ∧ keyedSnapshot.extents.Perm snapshot'.extents ∧ keyedSnapshot.Suits s ∧
      (keyedSnapshot.captured.filterMap (s.root? ·.2)).Nodup ∧
      (∀ x ∈ keyedSnapshot.triggers, ∀ y ∈ keyedSnapshot.triggers, x.2.2 = y.2.2 →
        x.2.1.address = y.2.1.address) ∧
      (t.references.get? "0x2" = some ⟨4⟩ ∧ t'.references.get? "0x2" = some ⟨3⟩) ∧
      ((t.store.children ⟨4⟩).entries = [("key0_value0", ⟨5⟩)] ∧
        (t'.store.children ⟨3⟩).entries = [("key0_value0", ⟨4⟩)]) ∧
      ((t.store.get ⟨5⟩).name = "'k'" ∧ (t'.store.get ⟨4⟩).name = "'k'") ∧
      ∀ depth, t.store.picture depth ⟨4⟩ = t'.store.picture depth ⟨3⟩ := by
  intro s snapshot' t t'
  have h : s.WellFormed := ((Replay.wellFormed_fresh {} (fun _ => none) objectLog).run _).live
  have perm : keyedSnapshot.extents.Perm snapshot'.extents := (List.reverse_perm _).symm
  have suits : keyedSnapshot.Suits s := by decide +kernel
  have roots : (keyedSnapshot.captured.filterMap (s.root? ·.2)).Nodup := by decide +kernel
  have triggers : ∀ x ∈ keyedSnapshot.triggers, ∀ y ∈ keyedSnapshot.triggers, x.2.2 = y.2.2 →
      x.2.1.address = y.2.1.address := by decide +kernel
  have maps : t.references.get? "0x2" = some ⟨4⟩ ∧ t'.references.get? "0x2" = some ⟨3⟩ := by
    decide +kernel
  obtain ⟨-, -, -, same⟩ := State.reordered_overlay h perm suits roots triggers true
  refine ⟨h, perm, suits, roots, triggers, maps, by decide +kernel, by decide +kernel,
    fun depth => ?_⟩
  have shown : (t.references.get? "0x2").map (t.store.picture depth) =
      (t'.references.get? "0x2").map (t'.store.picture depth) :=
    same (.object "0x2") (fun _ _ => nofun) depth
  rw [maps.1, maps.2] at shown
  exact Option.some.inj shown

end Retrace
