import Mathlib.Data.List.Flatten
import Mathlib.Data.List.Induction
import Retrace.Proofs.Overlay.Children

/-!
# Captured objects under an overlay

Each captured object is written for itself: what is written is its own binding, its children, and
the new bindings and collections within. So when objects have collections of their own and no
address is listed twice, each of them gets what the snapshot tells of it, and nothing is changed by
the others, before or behind.

* `State.Owns`, `State.Keeps`: the bindings and the collection that belong to an object.
* `State.Separate`, `Snapshot.Suits`: objects share no collection, and captured values no address.
* `Overlay.Contents`, `Overlay.DepictsObject`: an object as it is told.
* `Overlay.depicts_refreshObject`: one object.
* **`Overlay.depicted_written`**: all objects.
-/

namespace Retrace

/-! ## What belongs to an object -/

namespace State

/-- The children of an object are in the collection. -/
def Keeps (s : State) (key : String) (c : CollectionId) : Prop :=
  ∃ entry, s.references.get? key = some entry ∧ c = (s.store.get entry).children

/-- The binding stands for an object or is a child of it. -/
def Owns (s : State) (key : String) (b : BindingId) : Prop :=
  s.references.get? key = some b ∨ ∃ c name, s.Keeps key c ∧ s.slot? (.field c name) = some b

/-- Different objects have their children in different collections. -/
def Separate (s : State) : Prop :=
  ∀ {key key' c}, s.Keeps key c → s.Keeps key' c → key = key'

/-- It is enough to look at the known objects. -/
theorem separate_iff (s : State) : s.Separate ↔
    ∀ x ∈ s.references.entries, ∀ y ∈ s.references.entries,
      (s.store.get x.2).children = (s.store.get y.2).children → x.1 = y.1 := by
  constructor
  · intro h x hx y hy heq
    exact h ⟨x.2, Table.get?_eq_some_iff.2 hx, rfl⟩ ⟨y.2, Table.get?_eq_some_iff.2 hy, heq⟩
  · rintro h key key' c ⟨x, hx, rfl⟩ ⟨y, hy, heq⟩
    exact h (key, x) (Table.get?_eq_some_iff.1 hx) (key', y) (Table.get?_eq_some_iff.1 hy) heq

instance (s : State) : Decidable s.Separate := decidable_of_iff _ s.separate_iff.symm

theorem Owns.has {s : State} (hs : s.Sound) {key : String} {b : BindingId} (h : s.Owns key b) :
    s.store.Has b := by
  rcases h with h | ⟨c, name, -, h⟩
  · exact hs.has (x := .object key) h
  · exact hs.has h

theorem Keeps.has {s : State} (hs : s.Sound) {key : String} {c : CollectionId}
    (h : s.Keeps key c) : s.store.HasCollection c := by
  obtain ⟨entry, he, rfl⟩ := h
  exact hs.hasCollection (hs.has (x := .object key) he)

theorem Owns.place {s : State} (hs : s.Sound) {key : String} {b : BindingId} (h : s.Owns key b)
    {x : Slot} (hx : s.slot? x = some b) :
    x = .object key ∨ ∃ c name, s.Keeps key c ∧ x = .field c name := by
  rcases h with h | ⟨c, name, hc, h⟩
  · exact .inl (hs.unique hx h)
  · exact .inr ⟨c, name, hc, hs.unique hx h⟩

theorem Owns.unique {s : State} (hs : s.Sound) (separate : s.Separate) {key key' : String}
    {b : BindingId} (h : s.Owns key b) (h' : s.Owns key' b) : key = key' := by
  rcases h with h | ⟨c, name, hc, h⟩
  · rcases h'.place hs (x := .object key) h with heq | ⟨_, _, -, heq⟩
    · exact Slot.object.inj heq
    · cases heq
  · rcases h'.place hs h with heq | ⟨_, _, hc', heq⟩
    · cases heq
    · cases heq
      exact separate hc hc'

end State

namespace Overlay

variable {s : State} {o o' : Overlay} {b p x : BindingId} {c d : CollectionId} {l : Look}
  {form : Table Look} {extent : Extent} {capture : Capture}

/-! ## Single objects -/

theorem get_objectAt (o : Overlay) (address : String) :
    (o.state.references.get? address = some (o.objectAt address).1 ∧
      (o.objectAt address).2.state.store.get (o.objectAt address).1 =
        o.state.store.get (o.objectAt address).1) ∨
    (o.state.references.get? address = none ∧ ¬ o.state.store.Has (o.objectAt address).1 ∧
      (o.objectAt address).2.state.store.get (o.objectAt address).1 =
        { children := ⟨o.state.store.collections.size⟩ }) := by
  rcases o.objectAt_cases address with ⟨hknown, hsame⟩ | ⟨hnone, hnew, hstate⟩
  · exact .inl ⟨hknown, by rw [hsame]⟩
  · refine .inr ⟨hnone, hnew ▸ o.state.store.not_has_create "" "" "", ?_⟩
    rw [hstate, hnew]
    exact Store.get_create_self ..

theorem has_objectAt (a : Above s o) (address : String) :
    (o.objectAt address).2.state.store.Has (o.objectAt address).1 := by
  rcases o.objectAt_cases address with ⟨hknown, hsame⟩ | ⟨-, hnew, hstate⟩
  · rw [hsame]
    exact a.sound.has (x := .object address) hknown
  · rw [hstate, hnew]
    exact (Store.has_create ..).2 (.inr rfl)

theorem spares_openObject (o : Overlay) (extent : Extent) (capture : Capture) :
    o.Spares (o.openObject extent capture)
      (fun b => o.state.references.get? capture.address = some b)
      (o.state.Keeps capture.address) := by
  have other : ∀ {b}, o.state.store.Has b → o.state.references.get? capture.address ≠ some b →
      b ≠ (o.objectAt capture.address).1 := by
    rintro b hb hne rfl
    rcases o.get_objectAt capture.address with ⟨hknown, -⟩ | ⟨-, hnew, -⟩
    · exact hne hknown
    · exact hnew hb
  constructor
  case touches => exact o.touches_openObject extent capture
  case strings => exact (o.objectAt_notes capture.address).2.2.2
  case get => exact fun hb hB => o.get_openObject_of_ne extent capture (other hb hB)
  case collection =>
    intro c hc hC
    rw [collection_openObject, if_neg]
    rintro ⟨rfl, -⟩
    rcases o.get_objectAt capture.address with ⟨hknown, hget⟩ | ⟨-, -, hget⟩
    · exact hC ⟨_, hknown, by rw [hget]⟩
    · rw [hget] at hc
      exact Nat.lt_irrefl _ hc
  case shown =>
    intro b hb hB
    have values : b ∈ (o.openObject extent capture).state.references.values ↔
        b ∈ o.state.references.values := by
      simp only [Table.mem_values_iff, references_openObject]
      refine exists_congr fun key => ?_
      split
      · next hkey =>
        subst hkey
        exact iff_of_false (fun h => other hb hB (Option.some.inj h).symm) hB
      · exact Iff.rfl
    unfold targets
    rw [List.mem_append, List.mem_append, touched_openObject, List.mem_append, values,
      List.mem_singleton, or_iff_left (other hb hB)]
  case listed => exact fun _ _ => by rw [pairs_openObject]
  case waits => exact fun _ _ => by unfold waits; rw [pending_openObject]

/-- **The binding of an object** that was not written yet is as it is told. -/
theorem fits_openObject (a : Above s o) (extent : Extent)
    (known : o.state.references.get? capture.address = s.references.get? capture.address)
    (old : ∀ b, s.Owns capture.address b → o.Fits s b (s.look b)) :
    (o.openObject extent capture).Fits s (o.objectAt capture.address).1
      (s.objectLook extent capture) := by
  have has := has_objectAt a capture.address
  have hget := o.get_openObject_self extent capture has
  constructor
  case has => exact has_openObject a.valid extent capture
  case label =>
    rw [hget]
    unfold State.objectLook
    rw [← known]
    rcases o.get_objectAt capture.address with ⟨hknown, hsame⟩ | ⟨hnone, -, hnew⟩
    · have hlabel := (old _ (.inl (known ▸ hknown))).label
      rw [hsame, hknown]
      exact congrArg (fun label : Label => { label with
        typeName := extent.typeName
        reference := some capture.address }) hlabel
    · rw [hnew, hnone]
      rfl
  case home =>
    exact ⟨_, (o.references_openObject extent capture _).trans (if_pos rfl), rfl⟩
  case shown =>
    refine iff_of_true (List.mem_append_left _ ?_) rfl
    rw [touched_openObject]
    exact List.mem_append_right _ (List.mem_singleton_self _)
  case listed =>
    rw [pairs_openObject]
    unfold State.objectLook
    rw [← known]
    rcases o.get_objectAt capture.address with ⟨hknown, -⟩ | ⟨hnone, hnew, -⟩
    · rw [hknown]
      exact (old _ (.inl (known ▸ hknown))).listed
    · rw [hnone]
      exact iff_of_false (a.unnoted hnew).2.1 (by simp)
  case waits =>
    unfold waits State.objectLook
    rw [pending_openObject, ← known]
    rcases o.get_objectAt capture.address with ⟨hknown, -⟩ | ⟨hnone, hnew, -⟩
    · rw [hknown]
      exact (old _ (.inl (known ▸ hknown))).waits
    · rw [hnone]
      exact (a.unnoted hnew).2.2

/-- Whether an object keeps its children is settled from the start. -/
theorem merges_eq (a : Above s o) (extent : Extent)
    (known : o.state.references.get? capture.address = s.references.get? capture.address) :
    o.merges extent.typeName capture.address =
      ({ state := s } : Overlay).merges extent.typeName capture.address := by
  unfold merges Table.contains
  rw [known, (a.touches.sameFrames a.base).signature (Text.contains · extent.typeName)]

/-- **The children that an object keeps.** -/
theorem depicts_openObject (a : Above s o) (extent : Extent)
    (known : o.state.references.get? capture.address = s.references.get? capture.address)
    (old : ∀ b, s.Owns capture.address b → o.Fits s b (s.look b))
    (tables : ∀ c, s.Keeps capture.address c →
      o.state.store.collection c = s.store.collection c) :
    (o.openObject extent capture).Depicts s
      ((o.openObject extent capture).state.store.get (o.objectAt capture.address).1).children
      (s.keptForm extent capture) := by
  have has := has_objectAt a capture.address
  have hget := o.get_openObject_self extent capture has
  have spares := o.spares_openObject extent capture
  have table := o.collection_openObject extent capture
  unfold State.keptForm
  rw [← merges_eq a extent known, hget]
  cases hmerges : o.merges extent.typeName capture.address with
  | false =>
    have hempty : (o.openObject extent capture).state.store.collection ((o.objectAt
        capture.address).2.state.store.get (o.objectAt capture.address).1).children = .empty :=
      (table _).trans (if_pos ⟨rfl, hmerges⟩)
    exact ⟨by rw [hempty]; rfl, fun name => by rw [hempty]; exact .none⟩
  | true =>
    -- the object is known, and its collection is as it was
    have hcontains : (o.state.references.get? capture.address).isSome := by
      have h := hmerges
      unfold merges Table.contains at h
      exact (Bool.and_eq_true_iff.1 h).1
    rcases o.get_objectAt capture.address with ⟨hknown, hsame⟩ | ⟨hnone, -, -⟩
    swap
    · rw [hnone] at hcontains
      cases hcontains
    rw [hsame, ← known, hknown]
    have hchildren : (o.state.store.get (o.objectAt capture.address).1).children =
        (s.store.get (o.objectAt capture.address).1).children :=
      (old _ (.inl (known ▸ hknown))).home.1
    have keeps : s.Keeps capture.address (s.store.get (o.objectAt capture.address).1).children :=
      ⟨_, known ▸ hknown, rfl⟩
    have htable : (o.openObject extent capture).state.store.collection
        (o.state.store.get (o.objectAt capture.address).1).children =
          s.store.children (o.objectAt capture.address).1 := by
      rw [table, if_neg fun h => by simp [hmerges] at h, hchildren]
      exact tables _ keeps
    refine ⟨by rw [htable]; exact (Table.keys_map ..).symm, fun name => ?_⟩
    rw [htable]
    refine (congrArg (Option.Rel _ _) (Table.get?_map ..)).mpr ?_
    cases hx : (s.store.children (o.objectAt capture.address).1).get? name with
    | none => exact .none
    | some x =>
      have fx := old x (.inr ⟨_, name, keeps, hx⟩)
      refine .some (spares.fits a.sound.orderly fx (fun he => ?_) fun hfresh => ?_)
      · cases a.base.unique (x := .object capture.address) (known.symm.trans he)
          (show s.slot? (.field _ name) = some x from hx)
      · cases hfresh

/-- The children of a captured object are as they are told, in the collection `c`. -/
def Contents (s : State) (o : Overlay) (strings : String → Option String) (extent : Extent)
    (capture : Capture) (c : CollectionId) : Prop :=
  match extent.mapEntries? capture.content with
  | some entries => ¬ s.store.HasCollection c ∧ o.DepictsMap s c extent strings entries
  | none => o.Depicts s c (extent.form s strings capture)

/-- **A captured object is as it is told**, with its children, under the binding `entry`. -/
structure DepictsObject (s : State) (o : Overlay) (strings : String → Option String)
    (extent : Extent) (capture : Capture) (entry : BindingId) : Prop where
  known : o.state.references.get? capture.address = some entry
  fits : o.Fits s entry (s.objectLook extent capture)
  keeps : s.store.HasCollection (o.state.store.get entry).children →
    s.Keeps capture.address (o.state.store.get entry).children
  contents : o.Contents s strings extent capture (o.state.store.get entry).children

theorem contents_writeContent (a : Above s o) {entry : BindingId}
    (he : o.state.references.get? capture.address = some entry)
    (kept : o.Depicts s (o.state.store.get entry).children (s.keptForm extent capture))
    (maps : extent.mapEntries? capture.content ≠ none →
      s.references.get? capture.address = none ∧
        ¬ s.store.HasCollection (o.state.store.get entry).children) :
    o.Spares (o.writeContent entry extent capture.content)
      (fun x => ∃ name, o.state.slot? (.field (o.state.store.get entry).children name) = some x)
      (· = (o.state.store.get entry).children) ∧
    (o.writeContent entry extent capture.content).Contents s o.strings.get? extent capture
      (o.state.store.get entry).children := by
  have has := a.sound.has (x := .object capture.address) he
  unfold Contents
  cases h : extent.mapEntries? capture.content with
  | some entries =>
    obtain ⟨hnone, new⟩ := maps (by simp [h])
    have empty : o.state.store.children entry = .empty := by
      refine Table.eq_empty_of_keys (kept.keys.trans ?_)
      unfold State.keptForm
      rw [hnone]
      split <;> rfl
    obtain ⟨written, map⟩ :=
      depicts_writePairs a has new empty extent entries
    rw [writeContent_of_map h]
    exact ⟨written.mono (fun _ _ => False.elim) fun _ _ => id, new, map⟩
  | none =>
    rw [writeContent_of_items h]
    refine writeItems a has (fun name hx => ?_) (extent.noPair_items capture.content) kept
    cases a.sound.unique (x := .object capture.address) he hx

theorem keeps_openObject (a : Above s o) (extent : Extent)
    (known : o.state.references.get? capture.address = s.references.get? capture.address)
    (old : ∀ b, s.Owns capture.address b → o.Fits s b (s.look b)) :
    s.Keeps capture.address ((o.openObject extent capture).state.store.get
        (o.objectAt capture.address).1).children ∨
      s.references.get? capture.address = none ∧ ¬ o.state.store.HasCollection
        ((o.openObject extent capture).state.store.get (o.objectAt capture.address).1).children := by
  rw [o.get_openObject_self extent capture (has_objectAt a capture.address)]
  rcases o.get_objectAt capture.address with ⟨hknown, hsame⟩ | ⟨hnone, -, hnew⟩
  · have hentry := known.symm.trans hknown
    rw [hsame]
    exact .inl ⟨_, hentry, (old _ (.inl hentry)).home.1⟩
  · rw [hnew]
    exact .inr ⟨known.symm.trans hnone, Nat.lt_irrefl _⟩

/-- **One object is written**: it gets what is told of it, and nothing else changes. -/
theorem depicts_refreshObject (a : Above s o)
    (known : o.state.references.get? capture.address = s.references.get? capture.address)
    (old : ∀ b, s.Owns capture.address b → o.Fits s b (s.look b))
    (tables : ∀ c, s.Keeps capture.address c →
      o.state.store.collection c = s.store.collection c)
    (maps : extent.mapEntries? capture.content ≠ none →
      s.references.get? capture.address = none) :
    o.Spares (o.refreshObject extent capture) (s.Owns capture.address)
      (s.Keeps capture.address) ∧
    (o.refreshObject extent capture).DepictsObject s o.strings.get? extent capture
      (o.objectAt capture.address).1 := by
  have a' := a.move (.object extent capture)
  have opened : o.Spares (o.openObject extent capture) (s.Owns capture.address)
      (s.Keeps capture.address) := by
    refine (o.spares_openObject extent capture).mono (fun b _ hb => .inl (known.symm.trans hb)) ?_
    rintro c - ⟨entry, he, hc⟩
    have he' := known.symm.trans he
    exact ⟨entry, he', hc.trans (old entry (.inl he')).home.1⟩
  have fits := fits_openObject a extent known old
  have kept := depicts_openObject a extent known old tables
  have he := (o.references_openObject extent capture capture.address).trans (if_pos rfl)
  have cases := keeps_openObject a extent known old
  rw [refreshObject_eq]
  generalize (o.objectAt capture.address).1 = entry at *
  generalize o.openObject extent capture = o' at *
  obtain ⟨written, contents⟩ := contents_writeContent a' he kept fun hmap => ⟨maps hmap, by
    rcases cases with ⟨known, hknown, -⟩ | ⟨-, hnew⟩
    · rw [maps hmap] at hknown
      cases hknown
    · exact fun hc => hnew (a.grown hc)⟩
  have apart : ¬ ∃ name, o'.state.slot? (.field (o'.state.store.get entry).children name) =
      some entry := fun ⟨_, hx⟩ => by
    cases a'.sound.unique (x := .object capture.address) he hx
  have same := written.get fits.has apart
  rw [opened.strings] at contents
  refine ⟨opened.trans written ?_ ?_, ?_, ?_, ?_, ?_⟩
  · rintro x hx ⟨name, hfield⟩
    have hold := opened.touches.field_of_has a.sound.orderly hx hfield
    rcases cases with keeps | ⟨-, hnew⟩
    · refine .inr ⟨_, name, keeps, ?_⟩
      rw [← hold]
      exact congrArg (·.get? name) (tables _ keeps).symm
    · change (o.state.store.collection _).get? name = some x at hold
      rw [Store.collection_of_not_has _ hnew] at hold
      cases hold
  · rintro c hc rfl
    exact cases.elim id fun h => absurd hc h.2
  · rw [references_writeContent, he]
  · refine written.fits a'.sound.orderly fits apart fun hfresh => ?_
    cases hfresh
  · rw [same]
    exact fun hc => cases.elim id fun h => absurd (a.grown hc) h.2
  · rw [same]
    exact contents

/-! ## All objects -/

/-- **An object that is written stays as it is told** while others are written. -/
theorem Spares.depictsObject {key : String} (h : o.Spares o' (s.Owns key) (s.Keeps key))
    (a : Above s o) (separate : s.Separate) (hne : key ≠ capture.address)
    {strings : String → Option String} {entry : BindingId}
    (hd : o.DepictsObject s strings extent capture entry) :
    o'.DepictsObject s strings extent capture entry := by
  have has := hd.fits.has
  have unowned : ¬ s.Owns key entry := fun howns =>
    hne (howns.unique a.base separate
      (.inl (a.touches.object_of_has (howns.has a.base) hd.known)))
  have unkept : ¬ s.Keeps key (o.state.store.get entry).children := fun hkeeps =>
    hne (separate hkeeps (hd.keeps (hkeeps.has a.base)))
  have fresh : ∀ {d}, s.Keeps key d → ¬ Houses s o.state .fresh d := fun hkeeps hfresh =>
    hfresh.1 (hkeeps.has a.base)
  have same := h.get has unowned
  have hc := a.sound.hasCollection has
  refine ⟨(h.touches.entry a.sound.orderly hd.known).1, ?_, same.symm ▸ hd.keeps, ?_⟩
  · refine h.fits a.sound.orderly hd.fits unowned fun hfresh => ?_
    cases hfresh
  rw [same]
  have hcontents := hd.contents
  unfold Contents at hcontents ⊢
  split at hcontents
  · next entries _ =>
    obtain ⟨new, map⟩ := hcontents
    refine ⟨new, by rw [h.collection hc unkept, map.keys], fun hentry => ?_⟩
    obtain ⟨p, hp, hpair⟩ := map.pair hentry
    refine ⟨p, (h.field hc unkept _).trans hp, ?_⟩
    exact h.depictsPair a hpair (fun howns => howns.has a.base) (a.not_has_of_field new hp)
      (fun hkeeps => hpair.fits.home (hkeeps.has a.base)) fresh
  · refine h.depicts a hcontents hc unkept (fun {name x} hx howns => ?_) fresh
    -- a child that was there belongs to the object itself
    have hold := a.touches.field_of_has a.base.orderly (howns.has a.base) hx
    have hkeeps := hd.keeps (by
      by_contra hn
      exact a.not_has_of_field hn hx (howns.has a.base))
    exact hne (howns.unique a.base separate (.inr ⟨_, name, hkeeps, hold⟩))

theorem fits_start (hs : s.Sound) (snapshot : Snapshot) (hb : s.store.Has b) :
    (start s snapshot).Fits s b (s.look b) where
  has := hb
  label := rfl
  home := ⟨rfl, hs.hasCollection hb⟩
  shown := decide_eq_true_iff.symm
  listed := iff_of_false List.not_mem_nil Bool.false_ne_true
  waits := rfl

theorem depicts_foldl (hs : s.Sound) (separate : s.Separate) (snapshot : Snapshot)
    (l : List (Extent × Capture)) (distinct : (l.map (·.2.address)).Nodup)
    (maps : ∀ x ∈ l, x.1.mapEntries? x.2.content ≠ none →
      s.references.get? x.2.address = none) :
    (start s snapshot).Spares (l.foldl (fun o x => o.refreshObject x.1 x.2) (start s snapshot))
      (fun b => ∃ x ∈ l, s.Owns x.2.address b) (fun c => ∃ x ∈ l, s.Keeps x.2.address c) ∧
    (∀ key, (∀ x ∈ l, key ≠ x.2.address) →
      (l.foldl (fun o x => o.refreshObject x.1 x.2) (start s snapshot)).state.references.get? key =
        s.references.get? key) ∧
    ∀ x ∈ l, ∃ entry, (l.foldl (fun o x => o.refreshObject x.1 x.2)
      (start s snapshot)).DepictsObject s (stringsOf snapshot).get? x.1 x.2 entry := by
  induction l using List.reverseRecOn with
  | nil => exact ⟨.refl _, fun _ _ => rfl, fun x hx => absurd hx List.not_mem_nil⟩
  | append_singleton l x ih =>
    rw [List.map_append, List.nodup_append] at distinct
    obtain ⟨hl, -, hother⟩ := distinct
    have new : ∀ y ∈ l, x.2.address ≠ y.2.address := fun y hy h =>
      hother _ (List.mem_map_of_mem hy) _ (List.mem_singleton_self _) h.symm
    obtain ⟨before, refers, depicted⟩ := ih hl fun y hy => maps y (List.mem_append_left _ hy)
    have leads : (start s snapshot).Leads
        (l.foldl (fun o x => o.refreshObject x.1 x.2) (start s snapshot)) := by
      refine .foldl (valid_start hs snapshot) fun y _ h => ?_
      exact leads_refreshObject h.valid y.1 y.2
    have a := (Above.start hs snapshot).leads leads
    rw [List.foldl_append, List.foldl_cons, List.foldl_nil]
    generalize l.foldl (fun o x => o.refreshObject x.1 x.2) (start s snapshot) = o at *
    have known := refers _ new
    have apart : ∀ {b}, s.Owns x.2.address b → ¬ ∃ y ∈ l, s.Owns y.2.address b :=
      fun hb ⟨y, hy, hb'⟩ => new y hy (hb.unique hs separate hb')
    have old : ∀ b, s.Owns x.2.address b → o.Fits s b (s.look b) := fun b hb => by
      refine before.fits hs.orderly (fits_start hs snapshot (hb.has hs)) (apart hb) fun h => ?_
      cases h
    have tables : ∀ c, s.Keeps x.2.address c →
        o.state.store.collection c = s.store.collection c := fun c hc =>
      before.collection (hc.has hs) fun ⟨y, hy, hc'⟩ => new y hy (separate hc hc')
    obtain ⟨now, hx⟩ := depicts_refreshObject a known old tables
      (maps x (List.mem_append_right _ (List.mem_singleton_self x)))
    rw [show o.strings = stringsOf snapshot from before.strings] at hx
    have inside : ∀ {y}, y ∈ l → y ∈ l ++ [x] := fun hy => List.mem_append_left _ hy
    have last : x ∈ l ++ [x] := List.mem_append_right _ (List.mem_singleton_self x)
    refine ⟨?_, fun key hkey => ?_, fun y hy => ?_⟩
    · exact (before.mono (fun b _ ⟨y, hy, hb⟩ => ⟨y, inside hy, hb⟩)
        fun c _ ⟨y, hy, hc⟩ => ⟨y, inside hy, hc⟩).trans now
          (fun b _ hb => ⟨x, last, hb⟩) fun c _ hc => ⟨x, last, hc⟩
    · rw [references_refreshObject, if_neg (hkey x last)]
      exact refers key fun y hy => hkey y (inside hy)
    · rcases List.mem_append.1 hy with hy | hy
      · obtain ⟨entry, hd⟩ := depicted y hy
        exact ⟨entry, now.depictsObject a separate (new y hy) hd⟩
      · rw [List.mem_singleton] at hy
        subst hy
        exact ⟨_, hx⟩

end Overlay

/-- **What order does not matter to**: different objects have their children in different
collections, no address is captured twice, and no captured map is known already. -/
structure Snapshot.Suits (snapshot : Snapshot) (s : State) : Prop where
  separate : s.Separate
  distinct : (snapshot.captured.map (·.2.address)).Nodup
  maps : ∀ x ∈ snapshot.captured, x.1.mapEntries? x.2.content ≠ none →
    s.references.get? x.2.address = none

instance (snapshot : Snapshot) (s : State) : Decidable (snapshot.Suits s) :=
  decidable_of_iff
    (s.Separate ∧ (snapshot.captured.map (·.2.address)).Nodup ∧
      ∀ x ∈ snapshot.captured, x.1.mapEntries? x.2.content ≠ none →
        s.references.get? x.2.address = none)
    ⟨fun h => ⟨h.1, h.2.1, h.2.2⟩, fun h => ⟨h.separate, h.distinct, h.maps⟩⟩

namespace Overlay

variable {s : State} {snapshot : Snapshot}

/-- **All captured objects are as they are told**, and nothing else has changed. -/
theorem depicted_written (hs : s.Sound) (suits : snapshot.Suits s) :
    (start s snapshot).Spares (written s snapshot)
      (fun b => ∃ x ∈ snapshot.objects, s.Owns x.2.address b)
      (fun c => ∃ x ∈ snapshot.objects, s.Keeps x.2.address c) ∧
    (∀ key, (∀ x ∈ snapshot.objects, key ≠ x.2.address) →
      (written s snapshot).state.references.get? key = s.references.get? key) ∧
    ∀ x ∈ snapshot.objects, ∃ entry,
      (written s snapshot).DepictsObject s snapshot.text? x.1 x.2 entry := by
  have sub := snapshot.objects_sublist
  rw [written, refreshObjects_eq, ← get?_stringsOf]
  exact depicts_foldl hs suits.separate snapshot snapshot.objects
    (suits.distinct.sublist (sub.map _)) fun x hx => suits.maps x (sub.mem hx)

end Overlay

end Retrace
