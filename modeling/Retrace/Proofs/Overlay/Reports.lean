import Retrace.Proofs.Overlay.Slots

/-!
# What an overlay reads of a snapshot

An overlay goes through the extents of a snapshot in their order. What it finds there does not depend
on the order when no address is captured twice.

* `Report`, `Snapshot.report`: what an overlay reads of a snapshot, in no order.
* `Overlay.types_written`: the types at addresses.
* **`Overlay.report_perm`**: the same extents in another order have the same report.
-/

namespace Retrace

/-! ## What is read of a snapshot -/

/-- **What an overlay reads**, in no order. -/
structure Report where
  /-- What is captured. -/
  captured : Extent × Capture → Prop
  /-- What of it are objects. -/
  objects : Extent × Capture → Prop
  /-- What of it stands for trigger variables. -/
  triggers : Extent × Capture × String → Prop
  /-- The strings at addresses. -/
  strings : String → Option String
  /-- The types of the objects at addresses. -/
  types : String → Option String

namespace Snapshot

variable {s : State} {snapshot snapshot' : Snapshot}

/-- What an overlay of a state reads of the snapshot. -/
def report (snapshot : Snapshot) (s : State) (runningTrigger : Bool) : Report where
  captured := (· ∈ snapshot.captured)
  objects := (· ∈ snapshot.objects)
  triggers x := runningTrigger = true ∧ x ∈ snapshot.triggers
  strings := snapshot.text?
  types := (Overlay.written s snapshot).types

section Perm

variable (perm : snapshot.extents.Perm snapshot'.extents)
include perm

theorem captured_perm : snapshot.captured.Perm snapshot'.captured := perm.flatMap_right _

theorem objects_perm : snapshot.objects.Perm snapshot'.objects :=
  (perm.filter _).flatMap_right _

theorem triggers_perm : snapshot.triggers.Perm snapshot'.triggers :=
  (perm.filter _).flatMap_right _

theorem texts_perm : snapshot.texts.Perm snapshot'.texts := (perm.filter _).flatMap_right _

theorem Suits.of_perm (suits : snapshot.Suits s) : snapshot'.Suits s where
  separate := suits.separate
  distinct := ((captured_perm perm).map _).nodup_iff.1 suits.distinct
  maps x hx := suits.maps x ((captured_perm perm).mem_iff.2 hx)

end Perm

end Snapshot

namespace Overlay

variable {s : State} {snapshot snapshot' : Snapshot}

/-! ## Known objects -/

/-- **The types of the known objects** when all are written. -/
theorem types_written (hs : s.Sound) (suits : snapshot.Suits s) {address type : String} :
    (written s snapshot).types address = some type ↔
      (∃ x ∈ snapshot.objects, x.2.address = address ∧ x.1.typeName = type) ∨
        (∀ x ∈ snapshot.objects, address ≠ x.2.address) ∧
          ({ state := s } : Overlay).types address = some type := by
  obtain ⟨spares, refers, depicted⟩ := depicted_written hs suits
  have captured : ∀ x ∈ snapshot.objects,
      (written s snapshot).types x.2.address = some x.1.typeName := by
    intro x hx
    obtain ⟨entry, hd⟩ := depicted x hx
    rw [types, hd.known]
    exact congrArg (fun label : Label => some label.typeName) hd.fits.label
  have others : (∀ x ∈ snapshot.objects, address ≠ x.2.address) →
      (written s snapshot).types address = ({ state := s } : Overlay).types address := by
    intro new
    rw [types, types, refers address new]
    cases he : s.references.get? address with
    | none => rfl
    | some entry =>
      refine congrArg (fun binding : Binding => some binding.typeName) (spares.get ?_ ?_)
      · exact hs.has (x := .object address) he
      · rintro ⟨x, hx, howns⟩
        exact new x hx (howns.unique hs suits.separate (.inl he)).symm
  constructor
  · intro h
    by_cases hx : ∃ x ∈ snapshot.objects, address = x.2.address
    · obtain ⟨x, hx, rfl⟩ := hx
      exact .inl ⟨x, hx, rfl, Option.some.inj ((captured x hx).symm.trans h)⟩
    · have new : ∀ x ∈ snapshot.objects, address ≠ x.2.address := fun x hxm h => hx ⟨x, hxm, h⟩
      exact .inr ⟨new, (others new).symm.trans h⟩
  · rintro (⟨x, hx, rfl, rfl⟩ | ⟨new, h⟩)
    · exact captured x hx
    · exact (others new).trans h

/-- **Two snapshots of the same extents, in whatever order, have the same report.** -/
theorem report_perm (hs : s.Sound) (perm : snapshot.extents.Perm snapshot'.extents)
    (suits : snapshot.Suits s) (runningTrigger : Bool) :
    snapshot.report s runningTrigger = snapshot'.report s runningTrigger := by
  have suits' := suits.of_perm perm
  have captured : ∀ x, x ∈ snapshot.captured ↔ x ∈ snapshot'.captured := fun _ =>
    (Snapshot.captured_perm perm).mem_iff
  have objects : ∀ x, x ∈ snapshot.objects ↔ x ∈ snapshot'.objects := fun _ =>
    (Snapshot.objects_perm perm).mem_iff
  have triggers : ∀ x, x ∈ snapshot.triggers ↔ x ∈ snapshot'.triggers := fun _ =>
    (Snapshot.triggers_perm perm).mem_iff
  have strings : snapshot.text? = snapshot'.text? := by
    funext address
    refine Option.ext fun text => ?_
    rw [Snapshot.text?_iff suits.distinct, Snapshot.text?_iff suits'.distinct]
    exact (Snapshot.texts_perm perm).mem_iff
  have types : (written s snapshot).types = (written s snapshot').types := by
    funext address
    refine Option.ext fun type => ?_
    rw [types_written hs suits, types_written hs suits']
    simp only [objects]
  unfold Snapshot.report
  simp only [captured, objects, triggers, strings, types]

end Overlay

end Retrace
