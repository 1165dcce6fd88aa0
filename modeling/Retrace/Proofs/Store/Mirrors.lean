import Mathlib.Data.List.Forall2
import Retrace.Proofs.Store.Rendering

/-!
# Stores that show the same texts

The text of an object is made of the types, references and children of bindings, and of the names
and values of those that are no objects. What an object holds as its own value is not read, nor are
the name and the value of a child of a map. So a store may be compared with itself after texts were
written into it, and with another store whose bindings have other numbers.

* `Store.Mirrors`: bindings of two stores are related, and what is read of one is that of the other.
* `Store.Mirrors.shows`: related bindings have the same texts by the rules.
* **`Store.Mirrors.display`**: so they show the same.
* `Store.Mirrors.of_texts`: names and values that no text is made of may change.
-/

namespace Retrace.Store

/-- The relation `R` from the bindings of `s` to those of `t` respects all that texts are made of.
What is `hidden` are children of maps, whose names and values no text is made of. -/
structure Mirrors (s t : Store) (hidden : BindingId → Prop) (R : BindingId → BindingId → Prop) :
    Prop where
  typeName : ∀ {b c}, R b c → (t.get c).typeName = (s.get b).typeName
  reference : ∀ {b c}, R b c → (t.get c).reference = (s.get b).reference
  name : ∀ {b c}, R b c → ¬ hidden b → (t.get c).name = (s.get b).name
  value : ∀ {b c}, R b c → ¬ hidden b → ¬ s.IsObject b → (t.get c).value = (s.get b).value
  children : ∀ {b c}, R b c → List.Forall₂ R (s.children b).values (t.children c).values
  part : ∀ {b c}, R b c → ∀ name, Option.Rel R (s.child? b name) (t.child? c name)
  pair : ∀ {b}, hidden b → (s.get b).typeName = pairType
  noPart : ∀ {b name}, hidden b → name = pairKey ∨ name = pairValue → ∀ a, s.child? a name ≠ some b

namespace Mirrors

variable {s t : Store} {hidden : BindingId → Prop} {R : BindingId → BindingId → Prop}
  {b c : BindingId}

theorem isObject_iff (h : s.Mirrors t hidden R) (hbc : R b c) : t.IsObject c ↔ s.IsObject b := by
  unfold IsObject
  rw [h.reference hbc, h.typeName hbc]

theorem isObject_of_hidden (h : s.Mirrors t hidden R) (hb : hidden b)
    (refers : (s.get b).reference.isSome) : s.IsObject b := by
  refine ⟨refers, ?_⟩
  rw [h.pair hb]
  decide

theorem around (h : s.Mirrors t hidden R) (hbc : R b c) {path path' : List BindingId}
    (hpath : List.Forall₂ R path path') : t.Around path' c ↔ s.Around path b := by
  unfold Around
  rw [h.reference hbc]
  induction hpath with
  | nil => simp
  | cons hab _ ih => simp only [List.exists_mem_cons_iff, ih, h.reference hab]

theorem itemText (h : s.Mirrors t hidden R) {text text' : BindingId → String}
    (within : ∀ {x y}, s.Within b x → t.Within c y → R x y → (hidden x → s.IsObject x) →
      text' y = text x)
    {x y : BindingId} (hx : x ∈ (s.children b).values) (hy : y ∈ (t.children c).values)
    (hxy : R x y) (listed : Bool) : t.itemText text' listed y = s.itemText text listed x := by
  have href := h.reference hxy
  have htype := h.typeName hxy
  unfold Store.itemText
  rw [href, htype]
  split
  · next refers =>
    exact within (.child hx refers) (.child hy (by rwa [href])) hxy
      fun hidden => h.isObject_of_hidden hidden refers
  · next plain =>
    split
    · next pair =>
      have part : ∀ name, name = pairKey ∨ name = pairValue →
          (t.child? y name).elim "" text' = (s.child? x name).elim "" text := by
        intro name hname
        have hrel := h.part hxy name
        cases hd : s.child? x name with
        | none =>
          rw [hd] at hrel
          cases he : t.child? y name with
          | none => rfl
          | some e => rw [he] at hrel; cases hrel
        | some d =>
          rw [hd] at hrel
          cases he : t.child? y name with
          | none => rw [he] at hrel; cases hrel
          | some e =>
            rw [he] at hrel
            cases hrel with
            | some hde =>
              exact within (.part hx plain pair hname hd)
                (.part hy (by rwa [href]) (by rwa [htype]) hname he) hde
                fun hidden => absurd hd (h.noPart hidden hname x)
      rw [part pairKey (.inl rfl), part pairValue (.inr rfl)]
    · next noPair =>
      have visible : ¬ hidden x := fun hidden => noPair (h.pair hidden)
      rw [h.name hxy visible, h.value hxy visible fun hobj => plain hobj.1]

theorem objectText (h : s.Mirrors t hidden R) {text text' : BindingId → String}
    (within : ∀ {x y}, s.Within b x → t.Within c y → R x y → (hidden x → s.IsObject x) →
      text' y = text x) (hbc : R b c) : t.objectText text' c = s.objectText text b := by
  have items : ∀ {xs ys listed}, List.Forall₂ R xs ys → (∀ x ∈ xs, x ∈ (s.children b).values) →
      (∀ y ∈ ys, y ∈ (t.children c).values) →
      ys.map (t.itemText text' listed) = xs.map (s.itemText text listed) := by
    intro xs ys listed hxs
    induction hxs with
    | nil => exact fun _ _ => rfl
    | cons hxy _ ih =>
      intro hx hy
      rw [List.map_cons, List.map_cons,
        h.itemText within (hx _ List.mem_cons_self) (hy _ List.mem_cons_self) hxy,
        ih (fun x hm => hx x (List.mem_cons_of_mem _ hm))
          fun y hm => hy y (List.mem_cons_of_mem _ hm)]
  unfold Store.objectText
  dsimp only
  rw [h.typeName hbc, items (h.children hbc) (fun _ hx => hx) fun _ hy => hy]

/-- **Related bindings have the same texts**, inside related objects. -/
theorem shows (h : s.Mirrors t hidden R) (hbc : R b c) (hb : hidden b → s.IsObject b)
    {path path' : List BindingId} (hpath : List.Forall₂ R path path') {text : String}
    (hshows : s.Shows path b text) : t.Shows path' c text := by
  induction hshows generalizing c path' with
  | plain hobj =>
    rw [← h.value hbc (fun hidden => hobj (hb hidden)) hobj]
    exact .plain fun hobj' => hobj ((h.isObject_iff hbc).1 hobj')
  | again hobj around =>
    exact .again ((h.isObject_iff hbc).2 hobj) ((h.around hbc hpath).2 around)
  | @full path b hobj new text _ ih =>
    obtain ⟨text', hshows'⟩ := Classical.skolem.1 fun y => t.exists_shows (c :: path') y
    have same : t.objectText text' c = s.objectText text b := by
      refine h.objectText (fun {x y} hx _ hxy hidden => ?_) hbc
      exact (hshows' y).unique (ih x hx hxy hidden (.cons hbc hpath))
    rw [← same]
    exact .full ((h.isObject_iff hbc).2 hobj) (fun hn => new ((h.around hbc hpath).1 hn)) text'
      fun y _ => hshows' y

/-- **Related bindings show the same.** -/
theorem display (h : s.Mirrors t hidden R) (hbc : R b c) (hb : hidden b → s.IsObject b) :
    t.display c = s.display b :=
  (t.shows_display c).unique (h.shows hbc hb .nil (s.shows_display b))

end Mirrors

variable {s t : Store} {hidden : BindingId → Prop} {b : BindingId}

theorem children_of_get (collections : t.collections = s.collections)
    (children : (t.get b).children = (s.get b).children) : t.children b = s.children b := by
  unfold Store.children Store.collection
  rw [collections, children]

theorem child?_of_get (collections : t.collections = s.collections)
    (children : (t.get b).children = (s.get b).children) (name : String) :
    t.child? b name = s.child? b name :=
  congrArg (·.get? name) (children_of_get collections children)

/-- Writing names and values that no text is made of changes no text. -/
theorem Mirrors.of_texts (collections : t.collections = s.collections)
    (get : ∀ b, ∃ name value, t.get b = { s.get b with name, value } ∧
      (hidden b ∨ name = (s.get b).name ∧ (s.IsObject b ∨ value = (s.get b).value)))
    (pair : ∀ {b}, hidden b → (s.get b).typeName = pairType)
    (noPart : ∀ {b name}, hidden b → name = pairKey ∨ name = pairValue →
      ∀ a, s.child? a name ≠ some b) : s.Mirrors t hidden Eq := by
  have tables : ∀ b, t.children b = s.children b := by
    intro b
    obtain ⟨name, value, hget, -⟩ := get b
    exact children_of_get collections (by rw [hget])
  constructor
  case typeName => rintro b _ rfl; obtain ⟨_, _, hget, -⟩ := get b; rw [hget]
  case reference => rintro b _ rfl; obtain ⟨_, _, hget, -⟩ := get b; rw [hget]
  case name =>
    rintro b _ rfl visible
    obtain ⟨_, _, hget, hb⟩ := get b
    rw [hget, (hb.resolve_left visible).1]
  case value =>
    rintro b _ rfl visible hobj
    obtain ⟨_, _, hget, hb⟩ := get b
    rw [hget, (hb.resolve_left visible).2.resolve_left hobj]
  case children =>
    rintro b _ rfl
    rw [tables, List.forall₂_eq_eq_eq]
  case part =>
    rintro b _ rfl name
    unfold Store.child?
    rw [tables]
    cases (s.children b).get? name with
    | none => exact .none
    | some c => exact .some rfl
  case pair => exact pair
  case noPart => exact noPart

end Retrace.Store
