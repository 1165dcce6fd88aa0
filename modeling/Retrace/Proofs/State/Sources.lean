import Retrace.State.Assign
import Retrace.State.Declare

/-!
# States without the sources of frames

Where the code of a call lives is kept for the user. No event reads it: forgetting it before an event
or behind it comes to the same.

* `Frame.unsourced`, `State.unsourced`: frames and states without sources.
* `State.unsourced_ensureHandle`, `State.unsourced_link`, …: the parts of events.
* **`State.unsourced_assign`**, **`State.unsourced_declare`**: assignments and declarations.
* `State.unsourced_pushFrame`, `State.unsourced_popFrame`, `State.unsourced_setLine`: calls and
  statements.
-/

namespace Retrace

/-- The frame without its source. -/
def Frame.unsourced (f : Frame) : Frame := { f with source := .unknown }

namespace State

variable (s : State)

/-- The state without the sources of its frames. -/
def unsourced (s : State) : State := { s with stack := s.stack.map Frame.unsourced }

theorem top?_unsourced : s.unsourced.top? = s.top?.map Frame.unsourced :=
  List.head?_map

theorem topActivation?_unsourced : s.unsourced.topActivation? = s.topActivation? := by
  unfold topActivation?
  rw [top?_unsourced, Option.bind_map]
  rfl

/-! ## Parts of events -/

theorem unsourced_ensureHandle (b : BindingId) :
    (s.ensureHandle b).unsourced = s.unsourced.ensureHandle b := by
  have same : (s.unsourced.store.get b).handle = (s.store.get b).handle := rfl
  unfold ensureHandle
  rw [same]
  split <;> rfl

theorem unsourced_modifyTop (f : Activation → Activation) :
    (s.modifyTop f).unsourced = s.unsourced.modifyTop f := by
  unfold modifyTop
  rw [top?_unsourced]
  cases s.top? <;> rfl

theorem unsourced_referenceEntry (key : String) :
    (s.unsourced.referenceEntry key).1 = (s.referenceEntry key).1 ∧
      (s.referenceEntry key).2.unsourced = (s.unsourced.referenceEntry key).2 := by
  have same : s.unsourced.references = s.references := rfl
  unfold referenceEntry
  rw [same]
  cases s.references.get? key <;> exact ⟨rfl, rfl⟩

theorem unsourced_link (child entry : BindingId) (key : String) :
    (s.link child entry key).unsourced = s.unsourced.link child entry key :=
  unsourced_ensureHandle _ child

theorem unsourced_join (b entry : BindingId) (key leaf : String) :
    (s.join b entry key leaf).unsourced = s.unsourced.join b entry key leaf := by
  have same : s.unsourced.store = s.store := rfl
  unfold join
  rw [same]
  split
  · rfl
  · exact unsourced_ensureHandle _ b

/-! ## Decoding -/

theorem unsourced_decodeLeaf (child : BindingId) (v : Literal) :
    (s.decodeLeaf child v).unsourced = s.unsourced.decodeLeaf child v := by
  have same : s.unsourced.knownObject? v = s.knownObject? v := rfl
  unfold decodeLeaf
  rw [same]
  split
  · exact unsourced_link ..
  · rfl

mutual

theorem unsourced_decodeInto (s : State) (child : BindingId) (v : Literal) :
    (s.decodeInto child v).unsourced = s.unsourced.decodeInto child v := by
  match v with
  | .object fields =>
    rw [decodeInto, decodeInto, unsourced_decodeFields, unsourced_ensureHandle]
    rfl
  | .quoted _ | .bare _ | .array _ =>
    rw [decodeInto, decodeInto]
    exact unsourced_decodeLeaf ..

theorem unsourced_decodeFields (s : State) (parent : BindingId)
    (fields : List (String × Literal)) :
    (s.decodeFields parent fields).unsourced = s.unsourced.decodeFields parent fields := by
  match fields with
  | [] => rw [decodeFields, decodeFields]
  | (name, v) :: fields =>
    rw [decodeFields, decodeFields]
    dsimp only
    rw [unsourced_decodeFields, unsourced_decodeInto]
    rfl

end

/-! ## Assignments and declarations -/

theorem assignee_unsourced (owner : Option String) (leaf : String) :
    s.unsourced.assignee owner leaf = s.assignee owner leaf := by
  unfold assignee unqualified? local?
  rw [topActivation?_unsourced]
  rfl

theorem unsourced_assignObject (entry : BindingId) (v : Literal) :
    (s.assignObject entry v).unsourced = s.unsourced.assignObject entry v := by
  have same : s.unsourced.knownObject? v = s.knownObject? v := rfl
  unfold assignObject
  split
  · rw [← unsourced_decodeFields]
    rfl
  · rw [same]
    split
    · split <;> rfl
    · rfl

theorem unsourced_assignField (entry : BindingId) (leaf : String) (v : Literal) :
    (s.assignField entry leaf v).unsourced = s.unsourced.assignField entry leaf v :=
  congrArg (fun s : State => s.mapStore (·.setValue entry ""))
    (unsourced_decodeInto (s.childOrCreate entry leaf).2 _ v)

/-- **Assignments read no sources.** -/
theorem unsourced_assign (a : Assignment) : (s.assign a).unsourced = s.unsourced.assign a := by
  have raw : ∀ b v, s.unsourced.showsRaw b v = s.showsRaw b v := fun _ _ => rfl
  have entry : ∀ key, s.unsourced.referenceEntry key =
      ((s.referenceEntry key).1, (s.referenceEntry key).2.unsourced) := fun key =>
    Prod.ext (s.unsourced_referenceEntry key).1 (s.unsourced_referenceEntry key).2.symm
  unfold assign
  dsimp only
  rw [assignee_unsourced]
  split
  · rfl
  · rw [raw]
    split
    · rfl
    · rw [entry, unsourced_join, unsourced_assignObject]
  · rw [entry, unsourced_assignField]
  · rw [entry, unsourced_assignObject]
  · rfl

/-- **Declarations read no sources.** -/
theorem unsourced_declare (d : Declaration) : (s.declare d).unsourced = s.unsourced.declare d := by
  unfold declare
  rw [topActivation?_unsourced]
  split
  · rfl
  · split
    · rfl
    · split
      · rfl
      · exact unsourced_modifyTop ..

/-! ## Calls and statements -/

theorem unsourced_pushFrame (signature className : String) (scope : ScopeId) (source : Locator)
    (line : Nat) : (s.pushFrame signature className scope source line).unsourced =
      s.unsourced.pushFrame signature className scope .unknown line := by
  have depth : s.unsourced.stack.length = s.stack.length := List.length_map ..
  unfold pushFrame
  rw [depth]
  rfl

theorem unsourced_popFrame : s.popFrame.unsourced = s.unsourced.popFrame := by
  rcases s with ⟨_, _, _, _ | ⟨frame, stack⟩, _, _⟩ <;> rfl

theorem unsourced_setLine (line : Nat) :
    (s.setLine line).unsourced = s.unsourced.setLine line := by
  rcases s with ⟨_, _, _, _ | ⟨frame, stack⟩, _, _⟩ <;> rfl

end State

end Retrace
