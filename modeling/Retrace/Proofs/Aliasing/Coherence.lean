import Retrace.Proofs.Replay.Turns
import Mathlib.Tactic.ByContra

/-!
# Coherence of aliases

Bindings that refer to one object hold the collection of its entry, so that a child written through
one of them is read through all of them. Only one kind of line can end this: an assignment that
gives the entry of an object the collection of another object, while a binding that is not assigned
along still refers to the object.

* `State.Held`, `State.Coherent`: what can be reached, and the coherence of its references.
* `State.Strands`: the assignments that leave an alias behind.
* `State.Write.coherent`: all writes but that of an entry's collection keep states coherent.
* **`State.coherent_assign_iff`**: an assignment keeps a coherent state so unless it strands.
* **`Replay.coherent_turns_iff`**: a replay is coherent all the way exactly when no line strands.
-/

namespace Retrace

namespace State

/-! ## What is held -/

/-- Bindings reached from variables and known objects without going through `closed` ones. -/
inductive HeldPast (s : State) (closed : BindingId → Prop) : BindingId → Prop
  | root {x : Slot} {b : BindingId} (isRoot : x.IsRoot) (slot : s.slot? x = some b) :
      s.HeldPast closed b
  | child {b c : BindingId} {name : String} (held : s.HeldPast closed b) (opened : ¬ closed b)
      (slot : s.slot? (.field (s.store.get b).children name) = some c) : s.HeldPast closed c

/-- Bindings reached from variables and known objects. -/
def Held (s : State) : BindingId → Prop := s.HeldPast fun _ => False

/-- **Coherence**: a binding that refers to an object holds the collection of the object's entry,
which refers to the object itself. -/
def Coherent (s : State) : Prop :=
  ∀ b key, s.Held b → (s.store.get b).reference = some key →
    ∃ entry, s.references.get? key = some entry ∧ (s.store.get entry).reference = some key ∧
      (s.store.get b).children = (s.store.get entry).children

variable {s s' : State}

theorem HeldPast.held {closed : BindingId → Prop} {b : BindingId} (h : s.HeldPast closed b) :
    s.Held b := by
  induction h with
  | root isRoot slot => exact .root isRoot slot
  | child _ _ slot ih => exact .child ih id slot

/-- A child held by a root is held, whoever is closed. -/
theorem heldPast_of_entry {closed : BindingId → Prop} {key name : String} {entry c : BindingId}
    (h : s.slot? (.object key) = some entry) (opened : ¬ closed entry)
    (slot : s.slot? (.field (s.store.get entry).children name) = some c) :
    s.HeldPast closed c :=
  .child (.root (.inr ⟨key, rfl⟩) h) opened slot

theorem coherent_empty : empty.Coherent := by
  intro b key h
  have none : ∀ x c, empty.slot? x ≠ some c := by
    intro x c hx
    have := sound_empty.has hx
    simp [Store.Has, empty, Store.empty] at this
  induction h with
  | root _ slot => exact absurd slot (none _ _)
  | child _ _ slot => exact absurd slot (none _ _)

/-! ## What keeps coherence -/

theorem Drops.held {b : BindingId} (drops : s.Drops s') (h : s'.Held b) : s.Held b := by
  induction h with
  | root isRoot slot => exact .root isRoot (drops.slots _ _ slot)
  | child _ _ slot ih =>
    rw [drops.store] at slot
    exact .child ih id (drops.slots _ _ slot)

theorem Drops.coherent (drops : s.Drops s') (hc : s.Coherent) : s'.Coherent := by
  intro b key h hr
  rw [drops.store] at hr ⊢
  rw [drops.references]
  exact hc b key (drops.held h) hr

theorem Places.held {x : Slot} {b c : BindingId} (new : s.Places x b s') (h : s'.Held c) :
    s.Held c ∨ c = b := by
  induction h with
  | @root y d isRoot slot =>
    by_cases hy : y = x
    · subst hy
      exact (new.slot d slot).symm.imp_left fun h => .root isRoot h
    · rw [new.slots y hy] at slot
      exact .inl (.root isRoot slot)
  | @child d e name _ _ slot ih =>
    rcases ih with hd | rfl
    · by_cases hd' : d = b
      · subst hd'
        rw [new.childless] at slot
        cases slot
      · rw [new.others d hd'] at slot
        by_cases hy : Slot.field (s.store.get d).children name = x
        · subst hy
          exact (new.slot e slot).symm.imp_left fun h => .child hd id h
        · rw [new.slots _ hy] at slot
          exact .inl (.child hd id slot)
    · rw [new.childless] at slot
      cases slot

/-- A new binding that refers to nothing, or is an entry with the place of its key, keeps a state
coherent. -/
theorem Places.coherent {x : Slot} {b : BindingId} (hs : s.Sound) (new : s.Places x b s')
    (entry : ∀ key, x = .object key → s.slot? x = none ∧ s'.slot? x = some b)
    (hc : s.Coherent) : s'.Coherent := by
  intro c key h hr
  by_cases hcb : c = b
  · subst hcb
    by_cases hx : x = .object key
    · subst hx
      exact ⟨c, (entry key rfl).2, hr, rfl⟩
    · have : ∀ k, x ≠ .object k := by
        rintro k rfl
        rw [new.keyed k rfl] at hr
        exact hx (congrArg Slot.object (Option.some.inj hr))
      rw [new.plain this] at hr
      cases hr
  · rw [new.others c hcb] at hr ⊢
    obtain ⟨e, he, hre, hch⟩ := hc c key ((new.held h).resolve_right hcb) hr
    have hkey : s'.references.get? key = some e := by
      refine (new.slots (.object key) ?_).trans he
      rintro rfl
      have := (entry key rfl).1
      rw [show s.slot? (.object key) = some e from he] at this
      cases this
    have heb : e ≠ b := fun h => new.fresh (h ▸ hs.has (x := .object key) he)
    rw [← new.others e heb] at hre hch
    exact ⟨e, hkey, hre, hch⟩

theorem SamePlaces.held (same : s.SamePlaces s')
    (children : ∀ c name d, s.Held c → s'.slot? (.field (s'.store.get c).children name) = some d →
      s.Held d) {b : BindingId} (h : s'.Held b) : s.Held b := by
  induction h with
  | root isRoot slot => exact .root isRoot (same.slots _ ▸ slot)
  | child _ _ slot ih => exact children _ _ _ ih slot

/-- What bindings refer to and hold is all that coherence depends on. -/
theorem SamePlaces.coherent (same : s.SamePlaces s')
    (reference : ∀ c, (s'.store.get c).reference = (s.store.get c).reference)
    (children : ∀ c, (s'.store.get c).children = (s.store.get c).children)
    (hc : s.Coherent) : s'.Coherent := by
  intro c key h hr
  have held : s.Held c := by
    refine same.held (fun c name d hcs hd => ?_) h
    rw [children, same.slots] at hd
    exact .child hcs id hd
  rw [reference] at hr
  obtain ⟨entry, hk, hre, hch⟩ := hc c key held hr
  rw [← reference entry] at hre
  rw [← children c, ← children entry] at hch
  exact ⟨entry, (same.slots (.object key)).trans hk, hre, hch⟩

theorem SamePlaces.coherent_link (hs : s.Sound) {x : Slot} {b entry : BindingId} {key : String}
    (slot : s.slot? x = some b) (noEntry : ∀ k, x ≠ .object k)
    (known : s.slot? (.object key) = some entry) (same : s.SamePlaces s')
    (others : ∀ c, c ≠ b → s'.store.get c = s.store.get c)
    (reference : (s'.store.get b).reference = some key)
    (children : (s'.store.get b).children = (s.store.get entry).children)
    (hc : s.Coherent) : s'.Coherent := by
  -- no entry becomes an alias
  have entries : ∀ {k c}, s.slot? (.object k) = some c → s'.store.get c = s.store.get c := by
    intro k c hk
    refine others c ?_
    rintro rfl
    exact noEntry k (hs.unique slot hk)
  have held : ∀ {c}, s'.Held c → s.Held c := by
    refine same.held fun c name d hcs hd => ?_
    rw [same.slots] at hd
    by_cases hcb : c = b
    · rw [hcb, children] at hd
      exact heldPast_of_entry known id hd
    · rw [others c hcb] at hd
      exact .child hcs id hd
  intro c k h hr
  by_cases hcb : c = b
  · subst hcb
    rw [reference] at hr
    cases hr
    rw [children, ← entries known]
    refine ⟨entry, (same.slots (.object key)).trans known, ?_, rfl⟩
    rw [entries known]
    exact hs.keyed known
  · rw [others c hcb] at hr ⊢
    obtain ⟨e, hk, hre, hch⟩ := hc c k (held h) hr
    rw [← entries hk] at hre hch
    exact ⟨e, (same.slots (.object k)).trans hk, hre, hch⟩

/-- **All writes but that of an entry's collection keep states coherent.** -/
theorem Write.coherent {e : Effect} (w : s.Write e s') (he : ¬ e.Repoints) (hs : s.Sound)
    (hc : s.Coherent) : s'.Coherent := by
  cases w with
  | @relabel x b _ slot same others reference children =>
    refine same.coherent (fun c => ?_) (fun c => ?_) hc
    · by_cases h : c = b
      · rw [h, reference]
      · rw [others c h]
    · by_cases h : c = b
      · rw [h, children]
      · rw [others c h]
  | link slot noEntry known same others reference children =>
    exact SamePlaces.coherent_link hs slot noEntry known same others reference children hc
  | place vacant new filled =>
    refine new.coherent hs (fun key h => ?_) hc
    exact ⟨vacant, filled⟩
  | repoint => exact absurd trivial he

/-! ## Moving an object to another collection -/

/-- The bindings `moved` are those of an object, its entry among them. They all get the collection
of another object, which is not among them. -/
structure Moves (s : State) (moved : BindingId → Prop) (key : String) (known : BindingId)
    (s' : State) : Prop where
  same : s.SamePlaces s'
  others : ∀ c, ¬ moved c → s'.store.get c = s.store.get c
  reference : ∀ c, moved c → (s'.store.get c).reference = some key
  children : ∀ c, moved c → (s'.store.get c).children = (s.store.get known).children
  entry : ∃ entry, s.slot? (.object key) = some entry ∧ moved entry
  source : ∃ k, s.slot? (.object k) = some known
  unmoved : ¬ moved known

namespace Moves

variable {moved : BindingId → Prop} {key : String} {known : BindingId}

/-- What is held behind the move is what was held past the moved bindings. -/
theorem held_iff (m : s.Moves moved key known s') (b : BindingId) :
    s'.Held b ↔ s.HeldPast moved b := by
  obtain ⟨k, hk⟩ := m.source
  constructor
  · intro h
    induction h with
    | root isRoot slot => exact .root isRoot (m.same.slots _ ▸ slot)
    | @child c d name _ _ slot ih =>
      rw [m.same.slots] at slot
      by_cases hc : moved c
      · rw [m.children c hc] at slot
        exact heldPast_of_entry hk m.unmoved slot
      · rw [m.others c hc] at slot
        exact .child ih hc slot
  · intro h
    induction h with
    | root isRoot slot => exact .root isRoot (m.same.slots _ ▸ slot)
    | child _ opened slot ih =>
      rw [← m.same.slots, ← m.others _ opened] at slot
      exact .child ih id slot

/-- **An object that moves leaves a coherent state coherent** unless a binding that does not move
along refers to it. -/
theorem coherent_iff (m : s.Moves moved key known s') (hs' : s'.Sound) (hc : s.Coherent)
    {entry : BindingId} (he : s.slot? (.object key) = some entry) :
    s'.Coherent ↔ ((s.store.get entry).children ≠ (s.store.get known).children →
      ∀ b, s.HeldPast moved b → ¬ moved b → (s.store.get b).reference ≠ some key) := by
  have hmoved : moved entry := by
    obtain ⟨e, he', hm⟩ := m.entry
    cases he.symm.trans he'
    exact hm
  constructor
  · intro hc' apart b hb hnb hr
    -- the binding left behind holds the collection that the entry had
    obtain ⟨e, hk, -, hch⟩ := hc b key hb.held hr
    cases hk.symm.trans he
    have hr' : (s'.store.get b).reference = some key := by rw [m.others b hnb, hr]
    obtain ⟨e, hk', -, hch'⟩ := hc' b key ((m.held_iff b).2 hb) hr'
    cases hk'.symm.trans ((m.same.slots (.object key)).trans he)
    rw [m.others b hnb, m.children _ hmoved, hch] at hch'
    exact apart hch'
  · intro h b k hb hr
    have hb' := (m.held_iff b).1 hb
    by_cases hmb : moved b
    · rw [m.reference b hmb] at hr
      cases hr
      refine ⟨entry, (m.same.slots (.object key)).trans he, m.reference _ hmoved, ?_⟩
      rw [m.children b hmb, m.children _ hmoved]
    · rw [m.others b hmb] at hr ⊢
      obtain ⟨e, hk, hre, hch⟩ := hc b k hb'.held hr
      have hk' := (m.same.slots (.object k)).trans hk
      refine ⟨e, hk', hs'.keyed hk', ?_⟩
      by_cases hme : moved e
      · -- only the entry of the object itself moves
        cases (m.reference e hme).symm.trans (hs'.keyed hk')
        cases hk.symm.trans he
        rw [hch, m.children _ hmoved]
        by_contra apart
        exact h apart b hb' hmb hr
      · rw [m.others e hme, hch]

theorem join (m : s.Moves moved key known s') {b : BindingId} {s'' : State} {x : Slot}
    (hs : s.Sound) (hv : x.IsVariable) (hx : s.slot? x = some b) (same : s'.SamePlaces s'')
    (others : ∀ c, c ≠ b → s''.store.get c = s'.store.get c)
    (reference : (s''.store.get b).reference = some key)
    (children : (s''.store.get b).children = (s.store.get known).children) :
    s.Moves (fun c => moved c ∨ c = b) key known s'' where
  same := m.same.trans same
  others c hc := by
    rw [others c fun e => hc (.inr e), m.others c fun h => hc (.inl h)]
  reference c hc := by
    by_cases h : c = b
    · rw [h, reference]
    · rw [others c h, m.reference c (hc.resolve_right h)]
  children c hc := by
    by_cases h : c = b
    · rw [h, children]
    · rw [others c h, m.children c (hc.resolve_right h)]
  entry := by
    obtain ⟨entry, he, hm⟩ := m.entry
    exact ⟨entry, he, .inl hm⟩
  source := m.source
  unmoved := by
    obtain ⟨k, hk⟩ := m.source
    rintro (h | rfl)
    · exact m.unmoved h
    · exact hv.ne_object k (hs.unique hx hk)

end Moves

/-! ## Assignments -/

/-- What an assignment moves when it moves the object with the given entry: the entry, and the
variable that is bound to the object. -/
def MovedBy (s : State) (a : Assignment) (entry b : BindingId) : Prop :=
  b = entry ∨ s.assigned a = .variable b ∧
    ¬ ((Text.ownerAndLeaf a.name).2 = "this" ∧ (s.store.get b).reference.isSome)

theorem movedBy_iff (s : State) {a : Assignment} {b : BindingId} (ha : s.assigned a = .variable b)
    (entry c : BindingId) : s.MovedBy a entry c ↔ c = entry ∨
      c = b ∧ ¬ ((Text.ownerAndLeaf a.name).2 = "this" ∧ (s.store.get b).reference.isSome) := by
  unfold MovedBy
  rw [ha]
  refine or_congr_right ⟨?_, ?_⟩
  · rintro ⟨hc, h⟩
    cases hc
    exact ⟨rfl, h⟩
  · rintro ⟨rfl, h⟩
    exact ⟨rfl, h⟩

/-- **The assignment leaves an alias behind**: it moves a known object to the collection of another
one, and something held that does not move along refers to the object. -/
def Strands (s : State) (a : Assignment) : Prop :=
  ∃ key known entry b, s.Redirects a key known ∧ s.references.get? key = some entry ∧
    (s.store.get entry).children ≠ (s.store.get known).children ∧
    s.HeldPast (s.MovedBy a entry) b ∧ ¬ s.MovedBy a entry b ∧
    (s.store.get b).reference = some key

theorem moves_share (hs : s.Sound) {key k : String} {entry known : BindingId}
    (he : s.slot? (.object key) = some entry) (hk : s.slot? (.object k) = some known)
    (hne : known ≠ entry) :
    s.Moves (· = entry) key known (s.mapStore (·.share entry known)) where
  same := s.samePlaces_modify entry _ s.handles
  others _ hc := Store.get_share_of_ne hc known
  reference c hc := by
    subst hc
    simp only [mapStore]
    rw [Store.get_share_self (hs.has he)]
    exact hs.keyed he
  children c hc := by
    subst hc
    simp only [mapStore]
    rw [Store.get_share_self (hs.has he)]
  entry := ⟨entry, he, rfl⟩
  source := ⟨k, hk⟩
  unmoved := hne

theorem moves_assign (hs : s.Sound) {a : Assignment} {key : String} {known : BindingId}
    (h : s.Redirects a key known) :
    (s.referenceEntry key).2.Moves (s.MovedBy a (s.referenceEntry key).1) key known
      (s.assign a) := by
  have w := referenceEntry_writes (P := fun _ => True) s key trivial
  have hs' := w.sound hs
  have he := (slot?_referenceEntry s key _).trans (if_pos rfl)
  obtain ⟨k, ho, hne⟩ := h.known hs
  have m := moves_share hs' he (slot?_of_knownObject ho) hne
  rw [assign_of_key h.reference]
  dsimp only
  rw [assignObject_of_known ho hne]
  rcases ha : s.assigned a with b | _ | _
  · obtain ⟨x, hv, hx, -⟩ := slot?_of_assignee ha
    have hx' := w.slot_of_some hx
    have hbe : b ≠ (s.referenceEntry key).1 := by
      rintro rfl
      exact hv.ne_object key (hs'.unique hx' he)
    have hb := (Store.get_share_of_ne hbe known).trans (get_referenceEntry (hs.has hx) key)
    have hmoved := s.movedBy_iff ha (s.referenceEntry key).1
    dsimp only
    rw [if_neg (by simp [h.decoded b ha])]
    by_cases hthis : (Text.ownerAndLeaf a.name).2 = "this" ∧ (s.store.get b).reference.isSome
    · have : s.MovedBy a (s.referenceEntry key).1 = (· = (s.referenceEntry key).1) := by
        funext c
        simp [hmoved, hthis]
      rw [this, State.join, if_pos (by simpa only [mapStore, hb] using hthis)]
      exact m
    · have : s.MovedBy a (s.referenceEntry key).1 =
          fun c => c = (s.referenceEntry key).1 ∨ c = b := by
        funext c
        simp only [hmoved, hthis, not_false_eq_true, and_true]
      have hj := get_join (s := (s.referenceEntry key).2.mapStore
        (·.share (s.referenceEntry key).1 known)) ((m.same.has b).2 (hs'.has hx'))
        (s.referenceEntry key).1 key (by simpa only [mapStore, hb] using hthis)
      rw [this]
      refine m.join hs' hv hx' hj.1 hj.2.1 hj.2.2.1 (hj.2.2.2.trans ?_)
      exact m.children _ rfl
  · exact absurd ha h.noField
  · have : s.MovedBy a (s.referenceEntry key).1 = (· = (s.referenceEntry key).1) := by
      funext c
      simp [MovedBy, ha]
    rw [this]
    exact m

/-- **An assignment keeps a coherent state so** exactly when it leaves no alias behind. -/
theorem coherent_assign_iff (hs : s.Sound) (hc : s.Coherent) (a : Assignment) :
    (s.assign a).Coherent ↔ ¬ s.Strands a := by
  by_cases h : ∃ key known, s.Redirects a key known
  · obtain ⟨key, known, h⟩ := h
    have hs' := (Step.assign a).sound hs
    have he := (slot?_referenceEntry s key _).trans (if_pos rfl)
    cases hk : s.references.get? key with
    | some entry =>
      have hnew : s.referenceEntry key = (entry, s) := by simp only [referenceEntry, hk]
      have m := moves_assign hs h
      rw [hnew] at m he
      rw [m.coherent_iff hs' hc he]
      constructor
      · rintro hall ⟨key', known', entry', b, h', hk', apart, held, opened, hr⟩
        obtain ⟨rfl, rfl⟩ := h.unique h'
        cases hk.symm.trans hk'
        exact hall apart b held opened hr
      · intro hno apart b held opened hr
        exact hno ⟨key, known, entry, b, h, hk, apart, held, opened, hr⟩
    | none =>
      -- nothing refers to an object that is not known
      have w := write_referenceEntry hk
      have hc' := w.coherent id hs hc
      refine iff_of_true ?_ ?_
      · rw [(moves_assign hs h).coherent_iff hs' hc' he]
        intro _ b held opened hr
        cases w with
        | @place _ e _ _ new filled =>
          -- the new binding is the entry itself, which moves
          have hne : b ≠ e := by
            rintro rfl
            exact opened (.inl (Option.some.inj (filled.symm.trans he)))
          rw [new.others b hne] at hr
          obtain ⟨e', hk', -⟩ := hc b key ((new.held held.held).resolve_right hne) hr
          cases hk.symm.trans hk'
      · rintro ⟨key', known', entry', b, h', hk', -⟩
        cases (h.unique h').1
        cases hk.symm.trans hk'
  · refine iff_of_true ?_ ?_
    · have w := assign_writes (P := fun e => ¬ e.Repoints) hs a (fun _ h _ => h) (fun _ h _ => h)
        fun key known h' => absurd ⟨key, known, h'⟩ h
      exact (w.invariant (I := fun s => s.Sound ∧ s.Coherent)
        (fun he hw hi => ⟨hw.sound hi.1, hw.coherent he hi.1 hi.2⟩) ⟨hs, hc⟩).2
    · rintro ⟨key, known, entry, b, h', -⟩
      exact h ⟨key, known, h'⟩

/-- **A step keeps a coherent state so** unless it is an assignment that leaves an alias behind. -/
theorem Step.coherent_iff {e : Event} (h : s.Step e s') (hs : s.Sound) (hc : s.Coherent) :
    s'.Coherent ↔ ¬ ∃ a, e = .assignment a ∧ s.Strands a := by
  cases h with
  | drop quiet drops => exact iff_of_true (drops.coherent hc) fun ⟨a, ha, _⟩ => quiet a ha
  | declare drops isVariable new =>
    refine iff_of_true (new.coherent (drops.sound hs) (fun key h => ?_) (drops.coherent hc)) ?_
    · exact absurd h (isVariable.ne_object key)
    · rintro ⟨a, ha, -⟩
      cases ha
  | assign a =>
    rw [coherent_assign_iff hs hc a]
    refine not_congr ⟨fun h => ⟨a, rfl, h⟩, ?_⟩
    rintro ⟨a', ha, h⟩
    cases ha
    exact h

end State

/-! ## Replays -/

/-- The line is an assignment that leaves an alias behind. -/
def Turn.Strands (t : Turn) : Prop := ∃ a, t.event = .assignment a ∧ t.before.Strands a

namespace Replay

/-- **Coherence of replays.** After any number of advances a replay has been coherent behind every
line, and is so in the end, exactly when none of its lines has left an alias behind. -/
theorem coherent_turns_iff (config : Config) (resolver : Resolver) (lines : List String) (n : Nat) :
    ((∀ t ∈ (fresh config resolver lines).turns n, t.after.Coherent) ∧
        ((fresh config resolver lines).advances n).live.Coherent) ↔
      ∀ t ∈ (fresh config resolver lines).turns n, ¬ t.Strands := by
  -- what keeps coherence along the turns keeps it in all states
  have run : (∀ t ∈ (fresh config resolver lines).turns n,
      t.before.Sound ∧ t.before.Coherent → t.after.Coherent) → _ :=
    fun step => invariant_advances (I := fun s => s.Sound ∧ s.Coherent)
      (fun drops h => ⟨drops.sound h.1, drops.coherent h.2⟩)
      ⟨sound_fresh config resolver lines, State.coherent_empty⟩
      fun t ht h => ⟨(step_of_mem_turns ht).sound h.1, step t ht h⟩
  constructor
  · rintro ⟨hall, -⟩ t ht
    obtain ⟨⟨hs, hc⟩, -⟩ := (run fun t ht _ => hall t ht).1 t ht
    exact ((step_of_mem_turns ht).coherent_iff hs hc).1 (hall t ht)
  · intro hno
    obtain ⟨hts, -, hc⟩ := run fun t ht h =>
      ((step_of_mem_turns ht).coherent_iff h.1 h.2).2 (hno t ht)
    exact ⟨fun t ht => (hts t ht).2.2, hc⟩

/-- The variables `a` and `b` get objects of their own. Then `c` gets the first object, with the
second one as its value, and a field of it is written. -/
def redirectedLog : List String :=
  ["62.0 APEX_CODE,FINEST",
    "0|METHOD_ENTRY|[1]|1|A.f()",
    "0|VARIABLE_SCOPE_BEGIN|[2]|a|A|true|false",
    "0|VARIABLE_SCOPE_BEGIN|[2]|b|A|true|false",
    "0|VARIABLE_SCOPE_BEGIN|[2]|c|A|true|false",
    "0|VARIABLE_ASSIGNMENT|[2]|a|\x7b\x7d|0x1",
    "0|VARIABLE_ASSIGNMENT|[3]|b|\x7b\x7d|0x2",
    "0|VARIABLE_ASSIGNMENT|[4]|c|0x2|0x1",
    "0|VARIABLE_ASSIGNMENT|[5]|c.x|7|0x1",
    "0|STATEMENT_EXECUTE|[6]"]

set_option maxRecDepth 100000 in
/-- The field is not read through `a`, which still refers to the first object. -/
theorem not_coherent_redirectedLog :
    ¬ ((fresh {} (fun _ => none) redirectedLog).advances 2).live.Coherent := by
  have facts : ∀ s, s = ((fresh {} (fun _ => none) redirectedLog).advances 2).live →
      s.slot? (.localVar 1001 "a") = some ⟨0⟩ ∧ (s.store.get ⟨0⟩).reference = some "0x1" ∧
      s.references.get? "0x1" = some ⟨3⟩ ∧
      (s.store.get ⟨0⟩).children ≠ (s.store.get ⟨3⟩).children := by
    rintro _ rfl
    decide +kernel
  obtain ⟨ha, hr, he, hne⟩ := facts _ rfl
  intro h
  obtain ⟨entry, he', -, hch⟩ := h ⟨0⟩ "0x1" (.root (x := .localVar 1001 "a") (.inl trivial) ha) hr
  cases he.symm.trans he'
  exact hne hch

end Replay

end Retrace
