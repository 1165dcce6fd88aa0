import Retrace.Proofs.Overlay.Edits
import Retrace.Proofs.Overlay.Reads
import Retrace.Proofs.Store.Mirrors

/-!
# Texts of objects under an overlay

When everything else is written, the texts of objects are written anew, one after the other, and
then the children of maps get the names and values of what is in them. No text is made of what is
written here: the text of an object is not made of the values of objects, nor of the names and
values of children of maps. So one sweep is enough, in any order.

* `Overlay.get_sweep`, `Overlay.get_naming`: what the two last passes write.
* `Overlay.IsPair`, `Overlay.Paired`: children of maps, which moves leave what they are.
* **`Overlay.get_texts`**: what the bindings show in the end.
-/

namespace Retrace

namespace Store

variable {s : Store} {b : BindingId}

/-- The value of the key or the value in a child of a map; nothing of what is missing. -/
def partText (s : Store) (b : BindingId) (name : String) : String :=
  ((s.child? b name).map fun c => (s.get c).value).getD ""

theorem IsObject.has (h : s.IsObject b) : s.Has b := by
  by_contra hn
  have := h.1
  rw [get_of_not_has hn] at this
  cases this

end Store

/-- A binding that was there takes no other place, unless as a trigger variable. -/
theorem State.Touch.slots_of_has {s s' : State} (t : s.Touch s') (h : s.Closed) {b : BindingId}
    (hb : s.store.Has b) {x : Slot} (hx : s'.slot? x = some b) :
    s.slot? x = some b ∨ ∃ frame name, x = .globalVar frame name := by
  rcases t.slots h hx with hold | ⟨-, hnone, -⟩
  · exact .inl hold
  · -- only new bindings are put into a place that is none of a trigger variable
    cases t with
    | @child parent hp name =>
      change (s.childOrCreate parent name).2.slot? x = some b at hx
      rw [State.slot?_childOrCreate (h.whole parent hp)] at hx
      split at hx
      · rcases s.childOrCreate_cases parent name with ⟨-, hold⟩ | ⟨hnew, -⟩
        · exact absurd (hold.trans hx) (hnone _)
        · rw [hnew] at hx
          exact absurd (Option.some.inj hx ▸ hb) (s.store.not_has_create name "" "")
      · exact .inl hx
    | object key =>
      replace hx := ((State.samePlaces_modify _ (s.referenceEntry key).1 _ _).slots x).symm.trans hx
      rw [State.slot?_referenceEntry] at hx
      split at hx
      · rcases s.referenceEntry_cases key with ⟨-, hold⟩ | ⟨-, hnew, -⟩
        · exact absurd ((show s.slot? (.object key) = _ from hold).trans hx) (hnone _)
        · rw [hnew] at hx
          exact absurd (Option.some.inj hx ▸ hb) (s.store.not_has_create "" "" "")
      · exact .inl hx
    | global has unplaced name =>
      rcases State.slot?_insertGlobal hx with hold | ⟨-, frame, -, hframe⟩
      · exact .inl hold
      · exact .inr ⟨_, _, hframe⟩
    | relabel c => exact absurd (((s.samePlaces_modify c _ s.handles).slots x).symm.trans hx) (hnone x)
    | @number c => exact absurd (((s.samePlaces_ensureHandle c).slots x).symm.trans hx) (hnone x)
    | leave =>
      have h := s.slot?_collection x
      exact absurd (by cases x <;> exact h.symm.trans hx) (hnone x)
    | link => exact absurd (by cases x <;> exact hx) (hnone x)
    | clear => exact .inl (State.slot?_of_clear hx)
    | create => exact absurd ((s.slot?_create _ _ _ x).symm.trans hx) (hnone x)

namespace Overlay

open Store

/-! ## Writing texts -/

section Texts

variable {s : Store}

theorem refreshDisplay_eq (s : Store) (b : BindingId) :
    refreshDisplay s b = if s.IsObject b then s.setValue b (s.display b) else s := by
  have skipped : ((s.get b).reference.isNone || TypeName.isString (s.get b).typeName) = true ↔
      ¬ s.IsObject b := by
    simp only [Bool.or_eq_true, Option.isNone_iff_eq_none, IsObject, Option.isSome_iff_ne_none]
    tauto
  unfold refreshDisplay
  simp only [skipped, ite_not]

theorem collections_refreshDisplay (s : Store) (b : BindingId) :
    (refreshDisplay s b).collections = s.collections := by
  rw [refreshDisplay_eq]
  split <;> rfl

theorem get_refreshDisplay (s : Store) (b c : BindingId) : (refreshDisplay s b).get c =
    if c = b ∧ s.IsObject c then { s.get c with value := s.display c } else s.get c := by
  rw [refreshDisplay_eq]
  by_cases hcb : c = b
  · subst hcb
    by_cases h : s.IsObject c
    · rw [if_pos h, if_pos ⟨rfl, h⟩]
      exact get_modify_self _ h.has
    · rw [if_neg h, if_neg fun h' => h h'.2]
  · rw [if_neg (c := c = b ∧ _) fun h => hcb h.1]
    split
    · exact get_modify_of_ne _ hcb
    · rfl

theorem mirrors_refreshDisplay (s : Store) (b : BindingId) :
    s.Mirrors (refreshDisplay s b) (fun _ => False) Eq := by
  refine .of_texts (collections_refreshDisplay s b) (fun c => ?_) False.elim False.elim
  rw [get_refreshDisplay]
  split
  · next h => exact ⟨_, _, rfl, .inr ⟨rfl, .inl h.2⟩⟩
  · exact ⟨_, _, rfl, .inr ⟨rfl, .inr rfl⟩⟩

/-- **One sweep is enough**: no text that it writes is read for another one. -/
theorem get_sweep (targets : List BindingId) (s : Store) :
    (targets.foldl refreshDisplay s).collections = s.collections ∧
    ∀ b, (targets.foldl refreshDisplay s).get b =
      if b ∈ targets ∧ s.IsObject b then { s.get b with value := s.display b } else s.get b := by
  induction targets generalizing s with
  | nil => exact ⟨rfl, fun b => (if_neg fun h => by simp at h).symm⟩
  | cons a targets ih =>
    obtain ⟨hcollections, hget⟩ := ih (refreshDisplay s a)
    have mirrors := mirrors_refreshDisplay s a
    refine ⟨hcollections.trans (collections_refreshDisplay s a), fun b => ?_⟩
    simp only [List.foldl_cons, hget, mirrors.isObject_iff rfl, mirrors.display rfl False.elim,
      get_refreshDisplay]
    by_cases hobj : s.IsObject b
    · by_cases hab : b = a
      · subst hab
        simp [hobj]
      · simp [hobj, hab]
    · simp [hobj]

theorem get_namePair (s : Store) {p : BindingId} (hp : s.Has p) (b : BindingId) :
    (namePair s p).get b = if b = p then
      { s.get b with name := s.partText b pairKey, value := s.partText b pairValue }
      else s.get b := by
  unfold namePair
  dsimp only
  split
  · next h =>
    subst h
    exact get_modify_self _ hp
  · next h => exact get_modify_of_ne _ h

theorem get_naming {pairs : List BindingId} (s : Store) (has : ∀ p ∈ pairs, s.Has p)
    (noPart : ∀ p ∈ pairs, ∀ name, name = pairKey ∨ name = pairValue → ∀ a, s.child? a name ≠ some p) :
    (pairs.foldl namePair s).collections = s.collections ∧
    ∀ b, (pairs.foldl namePair s).get b = if b ∈ pairs then
      { s.get b with name := s.partText b pairKey, value := s.partText b pairValue }
      else s.get b := by
  induction pairs generalizing s with
  | nil => exact ⟨rfl, fun b => (if_neg (by simp)).symm⟩
  | cons p pairs ih =>
    have hget := get_namePair s (has p List.mem_cons_self)
    have hchild : ∀ a name, (namePair s p).child? a name = s.child? a name := fun a =>
      child?_of_get rfl (by rw [hget]; split <;> rfl)
    have htext : ∀ a name, name = pairKey ∨ name = pairValue →
        (namePair s p).partText a name = s.partText a name := by
      intro a name hname
      unfold partText
      rw [hchild]
      cases hc : s.child? a name with
      | none => rfl
      | some c =>
        have hcp : c ≠ p := fun h => noPart p List.mem_cons_self name hname a (h ▸ hc)
        simp only [Option.map_some, hget, if_neg hcp]
    obtain ⟨hcollections, ih⟩ := ih (namePair s p)
      (fun q hq => (has_modify ..).2 (has q (List.mem_cons_of_mem _ hq)))
      fun q hq name hname a => by
        rw [hchild]
        exact noPart q (List.mem_cons_of_mem _ hq) name hname a
    refine ⟨hcollections, fun b => ?_⟩
    rw [List.foldl_cons, ih, htext b _ (.inl rfl), htext b _ (.inr rfl), hget]
    by_cases hb : b = p
    · subst hb
      by_cases hbp : b ∈ pairs <;> simp [hbp]
    · simp [hb]

end Texts

/-! ## What moves keep -/

variable {o o' : Overlay} {b p : BindingId}

namespace Move

theorem sound (m : o.Move o') (hs : o.state.Sound) : o'.state.Sound :=
  m.touches.sound hs

end Move

/-- A child of a map: of the type of such children, and in no place but theirs. -/
structure IsPair (o : Overlay) (p : BindingId) : Prop where
  has : o.state.store.Has p
  typed : (o.state.store.get p).typeName = pairType
  placed : ∀ x, o.state.slot? x = some p → x.MayHoldPair

theorem Move.typed_of_isPair (m : o.Move o') (h : o.IsPair p) :
    (o'.state.store.get p).typeName = pairType := by
  cases m with
  | @type x c hx type pair =>
    by_cases hp : p = c
    · subst hp
      rw [get_setType_self h.has]
      exact pair.resolve_right fun hn => hn (h.placed x hx)
    · rw [get_setType_of_ne hp]
      exact h.typed
  | @number c _ =>
    exact (State.get_ensureHandle _ c Binding.typeName (fun _ _ => rfl) p).trans h.typed
  | @child parent _ name => rw [get_childOrCreate h.has, h.typed]
  | @scalar c inner text =>
    by_cases hp : p = c
    · subst hp
      rw [get_setScalar_self inner.has]
      exact h.typed
    · rw [get_setScalar_of_ne hp, h.typed]
  | @note c _ address =>
    exact (Store.get_modify_field (fun binding => { binding with value := address })
      Binding.typeName (fun _ => rfl) p).trans h.typed
  | @link c entry address inner known =>
    by_cases hp : p = c
    · subst hp
      obtain ⟨n, hn⟩ := get_link_self inner.has entry address
      have typed : ¬ pairType = "" := by decide
      rw [hn]
      dsimp only
      rw [h.typed, if_neg typed]
    · rw [get_link_of_ne hp, h.typed]
  | object extent c =>
    rw [get_openObject_of_ne, h.typed]
    intro hp
    rcases o.objectAt_cases c.address with ⟨hknown, -⟩ | ⟨-, hnew, -⟩
    · exact h.placed (.object c.address) (hp ▸ hknown)
    · exact o.state.store.not_has_create _ _ _ (hnew ▸ hp ▸ h.has)
  | pair => exact h.typed
  | create name type value =>
    refine (congrArg Binding.typeName (Store.get_create_of_ne _ _ _ _ fun hp => ?_)).trans h.typed
    exact o.state.store.not_has_create _ _ _ (hp ▸ h.has)
  | @global c _ _ name =>
    exact (congrArg (fun s : Store => (s.get p).typeName)
      (o.state.store_insertGlobal name c)).trans h.typed

/-- **Children of maps stay what they are.** -/
theorem Move.isPair (m : o.Move o') (v : o.Valid) (h : o.IsPair p) : o'.IsPair p where
  has := m.touches.has h.has
  typed := m.typed_of_isPair h
  placed x hx := by
    -- a move is made of touches, and along these a place is that of a child of a map
    have placed : ∀ {s}, o.state.Touches s → s.Orderly ∧ s.store.Has p ∧
        ∀ x, s.slot? x = some p → x.MayHoldPair := by
      intro s hs
      refine hs.invariant (I := fun s => s.Orderly ∧ s.store.Has p ∧
        ∀ x, s.slot? x = some p → x.MayHoldPair) (fun t h => ?_)
        ⟨v.orderly, h.has, h.placed⟩
      refine ⟨t.orderly h.1, t.has h.2.1, fun x hx => ?_⟩
      rcases t.slots_of_has h.1.toClosed h.2.1 hx with hold | ⟨frame, name, rfl⟩
      · exact h.2.2 x hold
      · trivial
    exact (placed m.touches).2.2 x hx

/-- The bindings listed as children of maps are such children. -/
def Paired (o : Overlay) : Prop := ∀ p ∈ o.pairs, o.IsPair p

theorem Move.paired (m : o.Move o') (v : o.Valid) (hs : o.state.Sound) (h : o.Paired) :
    o'.Paired := by
  have kept : ∀ p ∈ o.pairs, o'.IsPair p := fun p hp => m.isPair v (h p hp)
  intro p hp
  cases m with
  | @pair c index b placed typed =>
    rcases List.mem_append.1 hp with hp | hp
    · exact kept p hp
    · rw [List.mem_singleton] at hp
      subst hp
      refine ⟨hs.has placed, typed, fun x hx => ?_⟩
      rw [hs.unique hx placed]
      exact ⟨index, rfl⟩
  | object extent c => exact kept p (o.pairs_openObject extent c ▸ hp)
  | _ => exact kept p hp

theorem Leads.paired (h : o.Leads o') (v : o.Valid) (hs : o.state.Sound) (hp : o.Paired) :
    o'.Paired :=
  (h.keeps (I := fun o => o.state.Sound ∧ o.Paired)
    (fun v m h => ⟨m.sound h.1, m.paired v h.1 h.2⟩) v ⟨hs, hp⟩).2

/-! ## Texts in the end -/


theorem IsPair.not_part (h : o.IsPair p) {name : String}
    (hname : name = pairKey ∨ name = pairValue) (a : BindingId) :
    o.state.store.child? a name ≠ some p := by
  intro hp
  obtain ⟨index, hindex⟩ := h.placed (.field (o.state.store.get a).children name) hp
  rcases hname with rfl | rfl
  · exact Slot.pairKey_ne_pairName index hindex
  · exact Slot.pairValue_ne_pairName index hindex

/-- The bindings whose texts are written anew. -/
def targets (o : Overlay) : List BindingId := o.touched ++ o.state.references.values

/-- **What the bindings show in the end.** -/
theorem get_texts (h : o.Paired) :
    let t := o.refreshDisplays.namePairs.state.store
    t.collections = o.state.store.collections ∧
    o.state.store.Mirrors t (· ∈ o.pairs) Eq ∧
    ∀ b, t.get b =
      if b ∈ o.pairs then
        { o.state.store.get b with name := t.partText b pairKey, value := t.partText b pairValue }
      else if b ∈ o.targets ∧ o.state.store.IsObject b then
        { o.state.store.get b with value := t.display b }
      else o.state.store.get b := by
  intro t
  let swept := o.targets.foldl refreshDisplay o.state.store
  obtain ⟨hsweptTables, hswept⟩ := get_sweep o.targets o.state.store
  have sweptChild : ∀ a name, swept.child? a name = o.state.store.child? a name := fun a =>
    Store.child?_of_get hsweptTables (by rw [hswept]; split <;> rfl)
  obtain ⟨hnamedTables, hnamed⟩ := get_naming swept
    (fun p hp => o.touches_refreshDisplays.has (h p hp).has) fun p hp name hname a => by
      rw [sweptChild]
      exact (h p hp).not_part hname a
  change t.collections = swept.collections at hnamedTables
  change ∀ b, t.get b = _ at hnamed
  have tables : t.collections = o.state.store.collections := hnamedTables.trans hsweptTables
  have htext : ∀ p name, name = pairKey ∨ name = pairValue →
      t.partText p name = swept.partText p name := by
    intro p name hname
    have hchild : t.child? p name = swept.child? p name :=
      Store.child?_of_get hnamedTables (by rw [hnamed]; split <;> rfl) name
    unfold Store.partText
    rw [hchild]
    cases hc : swept.child? p name with
    | none => rfl
    | some c =>
      have hcp : c ∉ o.pairs := fun hcp => (h c hcp).not_part hname p (sweptChild p name ▸ hc)
      simp only [Option.map_some, hnamed, if_neg hcp]
  have hget : ∀ b, t.get b =
      if b ∈ o.pairs then
        { o.state.store.get b with name := t.partText b pairKey, value := t.partText b pairValue }
      else if b ∈ o.targets ∧ o.state.store.IsObject b then
        { o.state.store.get b with value := o.state.store.display b }
      else o.state.store.get b := by
    intro b
    rw [hnamed, htext b _ (.inl rfl), htext b _ (.inr rfl), hswept]
    by_cases hb : b ∈ o.pairs
    · simp only [if_pos hb]
      split <;> rfl
    · simp only [if_neg hb]
  have mirrors : o.state.store.Mirrors t (· ∈ o.pairs) Eq := by
    refine .of_texts tables (fun b => ?_) (fun hp => (h _ hp).typed)
      fun hp hname a => (h _ hp).not_part hname a
    rw [hget]
    split
    · next hb => exact ⟨_, _, rfl, .inl hb⟩
    · split
      · next hb => exact ⟨_, _, rfl, .inr ⟨rfl, .inl hb.2⟩⟩
      · exact ⟨_, _, rfl, .inr ⟨rfl, .inr rfl⟩⟩
  refine ⟨tables, mirrors, fun b => ?_⟩
  rw [hget]
  split
  · rfl
  · next hpair =>
    split
    · rw [mirrors.display rfl fun hp => absurd hp hpair]
    · rfl

theorem children_texts (h : o.Paired) (b : BindingId) :
    (o.refreshDisplays.namePairs.state.store.get b).children = (o.state.store.get b).children := by
  rw [(get_texts h).2.2]
  split
  · rfl
  · split <;> rfl

theorem child?_texts (h : o.Paired) (b : BindingId) (name : String) :
    o.refreshDisplays.namePairs.state.store.child? b name = o.state.store.child? b name :=
  Store.child?_of_get (get_texts h).1 (children_texts h b) name

/-! ## The passes before -/

theorem valid_start {s : State} (hs : s.Sound) (snapshot : Snapshot) :
    (start s snapshot).Valid :=
  ⟨hs.orderly, fun _ h => absurd h List.not_mem_nil⟩

theorem leads_written {s : State} (hs : s.Sound) (snapshot : Snapshot) :
    (start s snapshot).Leads (written s snapshot) :=
  leads_refreshObjects (valid_start hs snapshot) snapshot

theorem leads_linked {s : State} (hs : s.Sound) (snapshot : Snapshot) :
    Leads { written s snapshot with pending := [] } (linked s snapshot) :=
  leads_resolvePending (leads_written hs snapshot).valid

theorem leads_updated {s : State} (hs : s.Sound) (snapshot : Snapshot) :
    (linked s snapshot).Leads (updated s snapshot) :=
  leads_updateRoots (leads_linked hs snapshot).valid snapshot

theorem leads_untold {s : State} (hs : s.Sound) (snapshot : Snapshot) (runningTrigger : Bool) :
    (updated s snapshot).Leads (untold s snapshot runningTrigger) := by
  have v := (leads_updated hs snapshot).valid
  unfold untold
  split
  · exact leads_createTriggerGlobals v snapshot
  · exact .refl v

theorem paired_linked {s : State} (hs : s.Sound) (snapshot : Snapshot) :
    (linked s snapshot).state.Sound ∧ (linked s snapshot).Paired := by
  have hwritten := leads_written hs snapshot
  have hsound := hwritten.touches.sound hs
  have hpaired : (written s snapshot).Paired :=
    hwritten.paired (valid_start hs snapshot) hs fun _ h => absurd h List.not_mem_nil
  have hlinked := leads_linked hs snapshot
  refine ⟨hlinked.touches.sound hsound, hlinked.paired hwritten.valid.forget hsound ?_⟩
  exact fun p hp => ⟨(hpaired p hp).has, (hpaired p hp).typed, (hpaired p hp).placed⟩

theorem paired_untold {s : State} (hs : s.Sound) (snapshot : Snapshot) (runningTrigger : Bool) :
    (untold s snapshot runningTrigger).Paired := by
  have hlinked := paired_linked hs snapshot
  have huntold := (leads_updated hs snapshot).trans (leads_untold hs snapshot runningTrigger)
  exact huntold.paired (leads_linked hs snapshot).valid hlinked.1 hlinked.2

end Overlay

end Retrace
