import Retrace.Store.Display

/-!
# What the text of a binding is

Writing an object keeps one set of keys for all of its children: what is entered while one child is
written has to be left again before the next. The rules for texts know nothing of such a set. They
look at the path of objects from the outermost one down to the binding, and a binding is only
mentioned when an object on this path carries its key.

* `Store.Shows`: the rules. `s.Shows path b text` says that `text` stands for `b` inside the objects
  on the path.
* `Store.written_of_shows`: texts by the rules are written, and the keys are left as they were.
* `Store.exists_shows`: the rules give a text for every binding.
* **`Store.render_iff_shows`**: what is written for a binding is its text by the rules, in every
  store.
-/

namespace Retrace.Store

/-! ## Rules -/

/-- The binding refers to an object, and it is no string. -/
def IsObject (s : Store) (b : BindingId) : Prop :=
  (s.get b).reference.isSome ∧ ¬ TypeName.isString (s.get b).typeName

instance (s : Store) (b : BindingId) : Decidable (s.IsObject b) :=
  inferInstanceAs (Decidable (_ ∧ _))

/-- A binding on the path refers to the object that `b` refers to. -/
def Around (s : Store) (path : List BindingId) (b : BindingId) : Prop :=
  ∃ a ∈ path, (s.get a).reference = (s.get b).reference

/-- The bindings whose texts stand in the text of the object `b`: its children that refer to
something, and the keys and values in children of a map. -/
inductive Within (s : Store) (b : BindingId) : BindingId → Prop
  | child {c : BindingId} (hc : c ∈ (s.children b).values)
      (refers : (s.get c).reference.isSome) : s.Within b c
  | part {c d : BindingId} {name : String} (hc : c ∈ (s.children b).values)
      (plain : ¬ (s.get c).reference.isSome) (pair : (s.get c).typeName = pairType)
      (named : name = pairKey ∨ name = pairValue) (hd : s.child? c name = some d) : s.Within b d

/-- What stands for a child of an object, when `text` stands for the bindings within. -/
def itemText (s : Store) (text : BindingId → String) (listed : Bool) (c : BindingId) : String :=
  if (s.get c).reference.isSome then text c
  else if (s.get c).typeName = pairType then
    (s.child? c pairKey).elim "" text ++ "=" ++ (s.child? c pairValue).elim "" text
  else if listed then (s.get c).value
  else (s.get c).name ++ "=" ++ (s.get c).value

/-- What stands for an object in full, when `text` stands for the bindings within. -/
def objectText (s : Store) (text : BindingId → String) (b : BindingId) : String :=
  let type := (s.get b).typeName
  let items := (s.children b).values.map (s.itemText text (TypeName.isListOrSet type))
  (delimiters type).1 ++ ", ".intercalate items ++ (delimiters type).2

/-- **The rules for texts.** Inside the objects on the path, the innermost one first, a binding that
is no object shows its value; an object that is around already is only mentioned; any other object
is written in full, and stands on the path of all that is within. -/
inductive Shows (s : Store) : List BindingId → BindingId → String → Prop
  | plain {path : List BindingId} {b : BindingId} (h : ¬ s.IsObject b) :
      s.Shows path b (s.get b).value
  | again {path : List BindingId} {b : BindingId} (h : s.IsObject b) (around : s.Around path b) :
      s.Shows path b alreadyShown
  | full {path : List BindingId} {b : BindingId} (h : s.IsObject b) (new : ¬ s.Around path b)
      (text : BindingId → String) (within : ∀ c, s.Within b c → s.Shows (b :: path) c (text c)) :
      s.Shows path b (s.objectText text b)

/-- The keys of the objects on a path. -/
def keysOf (s : Store) (path : List BindingId) : List String :=
  path.filterMap fun a => (s.get a).reference

variable {s : Store} {path : List BindingId} {b : BindingId}

theorem IsObject.exists_key (h : s.IsObject b) : ∃ key, (s.get b).reference = some key :=
  Option.isSome_iff_exists.1 h.1

theorem keysOf_cons {key : String} (h : (s.get b).reference = some key) :
    s.keysOf (b :: path) = key :: s.keysOf path :=
  List.filterMap_cons_some h

theorem around_iff {key : String} (h : (s.get b).reference = some key) :
    s.Around path b ↔ key ∈ s.keysOf path := by
  simp only [Around, keysOf, List.mem_filterMap, h]

/-! ## Writing follows the rules -/

section Render

/-- The text is written, with the keys left as they were found. -/
structure Written (s : Store) (keys : List String) (b : BindingId) (text : String) : Prop where
  shown : (s.render keys b).1 = text
  left : (s.render keys b).2.1 = keys

variable {keys : List String} {text : BindingId → String}

theorem Written.render {text : String} (h : s.Written keys b text) :
    s.render keys b = (text, ⟨keys, Nat.le_refl _⟩) :=
  Prod.ext h.shown (Subtype.ext h.left)

theorem Written.of_render {text : String} (h : s.render keys b = (text, ⟨keys, Nat.le_refl _⟩)) :
    s.Written keys b text := by
  constructor <;> rw [h]

theorem Written.renderPart {n : Nat} {h : s.keysOff keys ≤ n} {c? : Option BindingId}
    (hc : ∀ c, c? = some c → s.Written keys c (text c)) :
    s.renderPart n ⟨keys, h⟩ c? = (c?.elim "" text, ⟨keys, h⟩) := by
  cases c? with
  | none => rw [Store.renderPart]; rfl
  | some c =>
    rw [Store.renderPart, (hc c rfl).render]
    rfl

theorem Written.renderItem {n : Nat} {h : s.keysOff keys ≤ n} {c : BindingId}
    (hc : c ∈ (s.children b).values) (within : ∀ d, s.Within b d → s.Written keys d (text d))
    (listed : Bool) :
    s.renderItem n ⟨keys, h⟩ listed c = (s.itemText text listed c, ⟨keys, h⟩) := by
  rw [Store.renderItem, itemText]
  split
  · next refers =>
    rw [(within c (.child hc refers)).render]
  · next plain =>
    split
    · next pair =>
      have key := Written.renderPart (h := h) fun d hd => within d (.part hc plain pair (.inl rfl) hd)
      have value := Written.renderPart (h := h) fun d hd =>
        within d (.part hc plain pair (.inr rfl) hd)
      rw [key]
      dsimp only
      rw [value]
    · split <;> rfl

/-- **One child leaves the keys to the next as it found them.** -/
theorem Written.renderItems {n : Nat} {h : s.keysOff keys ≤ n} {cs : List BindingId}
    (hcs : ∀ c ∈ cs, c ∈ (s.children b).values)
    (within : ∀ d, s.Within b d → s.Written keys d (text d)) (listed : Bool) :
    s.renderItems n ⟨keys, h⟩ listed cs = (cs.map (s.itemText text listed), ⟨keys, h⟩) := by
  induction cs with
  | nil => rw [Store.renderItems]; rfl
  | cons c cs ih =>
    rw [Store.renderItems, Written.renderItem (hcs c List.mem_cons_self) within]
    dsimp only
    rw [ih fun c hc => hcs c (List.mem_cons_of_mem _ hc)]
    rfl

theorem Written.value (h : ¬ s.IsObject b) : s.Written keys b (s.get b).value := by
  refine .of_render ?_
  rw [Store.render]
  split
  · rfl
  · next key hr =>
    rw [if_pos]
    exact Classical.byContradiction fun hn => h ⟨Option.isSome_of_eq_some hr, hn⟩

theorem Written.again {key : String} (h : s.IsObject b) (hr : (s.get b).reference = some key)
    (hkey : key ∈ keys) : s.Written keys b alreadyShown := by
  refine .of_render ?_
  rw [Store.render]
  split
  · next hnone => rw [hr] at hnone; cases hnone
  · next key' hr' =>
    cases hr.symm.trans hr'
    rw [if_neg h.2, dif_pos hkey]

theorem Written.full {key : String} (h : s.IsObject b) (hr : (s.get b).reference = some key)
    (hkey : key ∉ keys) (within : ∀ d, s.Within b d → s.Written (key :: keys) d (text d)) :
    s.Written keys b (s.objectText text b) := by
  refine .of_render ?_
  rw [Store.render]
  split
  · next hnone => rw [hr] at hnone; cases hnone
  · next key' hr' =>
    cases hr.symm.trans hr'
    rw [if_neg h.2, dif_neg hkey]
    dsimp only
    rw [Written.renderItems (fun _ hc => hc) within]
    -- leaving takes out the key that entering put in front
    have left : (key :: keys).filter (· ≠ key) = keys := by
      rw [List.filter_cons_of_neg (by simp), List.filter_eq_self]
      intro k hk
      simpa using fun e : k = key => hkey (e ▸ hk)
    simp only [left]
    rfl

end Render

/-- **Texts by the rules are written**, and the keys are left as they were found. -/
theorem written_of_shows {text : String} (h : s.Shows path b text) :
    s.Written (s.keysOf path) b text := by
  induction h with
  | plain h => exact Written.value h
  | again h around =>
    obtain ⟨key, hr⟩ := h.exists_key
    exact Written.again h hr ((around_iff hr).1 around)
  | full h new text _ ih =>
    obtain ⟨key, hr⟩ := h.exists_key
    refine Written.full h hr (fun hk => new ((around_iff hr).2 hk)) fun d hd => ?_
    rw [← keysOf_cons hr]
    exact ih d hd

/-- **The rules give a text for every binding**: an object in full stands on the path, and the store
has finitely many keys. -/
theorem exists_shows (s : Store) (path : List BindingId) (b : BindingId) :
    ∃ text, s.Shows path b text := by
  induction h : s.keysOff (s.keysOf path) using Nat.strongRecOn generalizing path b with
  | _ n ih =>
    by_cases hobj : s.IsObject b
    · by_cases haround : s.Around path b
      · exact ⟨_, .again hobj haround⟩
      · obtain ⟨key, hr⟩ := hobj.exists_key
        have fewer : s.keysOff (s.keysOf (b :: path)) < n := by
          rw [keysOf_cons hr, ← h]
          exact keysOff_cons_lt (mem_referenceKeys hr) fun hk => haround ((around_iff hr).2 hk)
        obtain ⟨text, shown⟩ := Classical.skolem.1 fun c => ih _ fewer (b :: path) c rfl
        exact ⟨_, .full hobj haround text fun c _ => shown c⟩
    · exact ⟨_, .plain hobj⟩

theorem Shows.unique {text text' : String} (h : s.Shows path b text) (h' : s.Shows path b text') :
    text = text' := by
  exact (written_of_shows h).shown.symm.trans (written_of_shows h').shown

theorem shows_display (s : Store) (b : BindingId) : s.Shows [] b (s.display b) := by
  obtain ⟨text, h⟩ := s.exists_shows [] b
  have hw : s.Written [] b text := written_of_shows h
  rwa [display, hw.shown]

/-- An object in which there is no other object shows the values within, and mentions itself. -/
theorem display_of_forall (h : s.IsObject b)
    (own : ∀ c ∈ (s.children b).values,
      ∀ d ∈ c :: ((s.child? c pairKey).toList ++ (s.child? c pairValue).toList),
        s.IsObject d → (s.get d).reference = (s.get b).reference) :
    s.display b =
      s.objectText (fun c => if s.IsObject c then alreadyShown else (s.get c).value) b := by
  refine (s.shows_display b).unique (.full h (fun ⟨a, ha, _⟩ => List.not_mem_nil ha) _ ?_)
  intro d within
  have reference : s.IsObject d → (s.get d).reference = (s.get b).reference := by
    cases within with
    | child hc => exact own d hc d List.mem_cons_self
    | @part c _ name hc _ _ named hd =>
      refine own c hc d (List.mem_cons_of_mem _ (List.mem_append.2 ?_))
      simp only [Option.mem_toList]
      rcases named with rfl | rfl
      · exact .inl hd
      · exact .inr hd
  split
  · next hd => exact .again hd ⟨b, List.mem_cons_self, (reference hd).symm⟩
  · next hd => exact .plain hd

end Retrace.Store
