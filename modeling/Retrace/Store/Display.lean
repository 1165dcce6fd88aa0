import Retrace.Store
import Retrace.TypeName

/-!
# Showing objects

The text of an object lists its children, objects among them in full. Objects may contain
themselves, so the keys of the objects being written are kept: a key is added when its object is
entered and taken out again behind the last child, and an object whose key is there is only
mentioned.

* `Store.Entered`: the keys of the objects being written.
* `Store.render`, `Store.renderItem`, `Store.renderItems`: the text of a binding, of a child and of
  all children of an object, each with the keys that are left. Writing ends since every object
  entered takes one more of the store's finitely many keys.
* `Store.display`: the text of a binding on its own.
-/

set_option linter.unusedVariables false

namespace Retrace

/-- The type of the children of a map: each holds a key and a value. -/
def pairType : String := "KeyValuePair"

/-- The name of the key in a child of a map. -/
def pairKey : String := "key"

/-- The name of the value in a child of a map. -/
def pairValue : String := "value"

/-- Stands for an object inside itself. -/
def alreadyShown : String := "already output"

/-- What stands before and after the children of an object of the given type. -/
def delimiters (type : String) : String × String :=
  if TypeName.isListOrSet type then ("(", ")")
  else if TypeName.isCollection type then ("\x7b", "\x7d")
  else (type ++ ":\x7b", "\x7d")

namespace Store

/-! ## Keys -/

/-- The reference keys that occur in the store. -/
def referenceKeys (s : Store) : List String :=
  s.bindings.toList.filterMap (·.reference)

/-- How many occurrences of reference keys are not among `keys`. -/
def keysOff (s : Store) (keys : List String) : Nat :=
  s.referenceKeys.countP fun key => key ∉ keys

/-- The keys of the objects being written. At most `n` occurrences of reference keys are not among
them. -/
abbrev Entered (s : Store) (n : Nat) : Type := { keys : List String // s.keysOff keys ≤ n }

theorem mem_referenceKeys {s : Store} {b : BindingId} {key : String}
    (h : (s.get b).reference = some key) : key ∈ s.referenceKeys := by
  unfold get at h
  cases hb : s.bindings[b.index]? with
  | none => rw [hb] at h; simp at h
  | some binding =>
    rw [hb] at h
    refine List.mem_filterMap.2 ⟨binding, ?_, h⟩
    exact Array.mem_toList_iff.2 (Array.mem_of_getElem? hb)

/-- The occurrences of a key that is entered are no longer off. -/
theorem keysOff_cons (s : Store) {keys : List String} {key : String} (hp : key ∉ keys) :
    s.keysOff (key :: keys) + s.referenceKeys.count key = s.keysOff keys := by
  unfold keysOff
  induction s.referenceKeys with
  | nil => rfl
  | cons k ks ih =>
    by_cases hk : k = key
    · subst hk
      simp [hp] at ih ⊢
      omega
    · simp [hk, List.countP_cons] at ih ⊢
      omega

theorem keysOff_cons_lt {s : Store} {keys : List String} {key : String}
    (hs : key ∈ s.referenceKeys) (hp : key ∉ keys) : s.keysOff (key :: keys) < s.keysOff keys := by
  have := s.keysOff_cons hp
  have := List.count_pos_iff.2 hs
  omega

/-- A key that is left was entered before. -/
theorem keysOff_leave {s : Store} {keys left : List String} {key : String} (hp : key ∉ keys)
    (h : s.keysOff left ≤ s.keysOff (key :: keys)) :
    s.keysOff (left.filter (· ≠ key)) ≤ s.keysOff keys := by
  have hleave : s.keysOff (left.filter (· ≠ key)) ≤ s.keysOff left + s.referenceKeys.count key := by
    unfold keysOff
    induction s.referenceKeys with
    | nil => exact Nat.le_refl _
    | cons k ks ih =>
      by_cases hk : k = key
      · subst hk
        simp [List.countP_cons] at ih ⊢
        omega
      · simp [hk, List.countP_cons] at ih ⊢
        omega
  have := s.keysOff_cons hp
  omega

/-- Writing with the keys `entered` comes before what only knows how many keys are off. -/
theorem lex_entered {s : Store} {n : Nat} (entered : s.Entered n) (i : Nat) :
    Prod.Lex (· < ·) (· < ·) (s.keysOff entered.1, 0) (n, i + 1) := by
  rcases Nat.lt_or_eq_of_le entered.2 with h | h
  · exact .left _ _ h
  · rw [h]
    exact .right _ (Nat.succ_pos i)

/-! ## Writing -/

mutual

/-- The text of a binding while the objects with the keys `entered` are being written. -/
def render (s : Store) (entered : List String) (b : BindingId) :
    String × s.Entered (s.keysOff entered) :=
  match hr : (s.get b).reference with
  | none => ((s.get b).value, ⟨entered, Nat.le_refl _⟩)
  | some key =>
    if TypeName.isString (s.get b).typeName then ((s.get b).value, ⟨entered, Nat.le_refl _⟩)
    else if hp : key ∈ entered then (alreadyShown, ⟨entered, Nat.le_refl _⟩)
    else
      let inside : s.Entered (s.keysOff (key :: entered)) := ⟨key :: entered, Nat.le_refl _⟩
      let listed := TypeName.isListOrSet (s.get b).typeName
      let (texts, left) := renderItems s _ inside listed (s.children b).values
      let (opening, closing) := delimiters (s.get b).typeName
      (opening ++ ", ".intercalate texts ++ closing,
        ⟨left.1.filter (· ≠ key), keysOff_leave hp left.2⟩)
termination_by (s.keysOff entered, 0)
decreasing_by exact Prod.Lex.left _ _ (keysOff_cons_lt (mem_referenceKeys hr) hp)

/-- The text of a child of an object, which may be `listed` without its name. -/
def renderItem (s : Store) (n : Nat) (entered : s.Entered n) (listed : Bool) (c : BindingId) :
    String × s.Entered n :=
  if (s.get c).reference.isSome then
    let (text, left) := render s entered.1 c
    (text, ⟨left.1, Nat.le_trans left.2 entered.2⟩)
  else if (s.get c).typeName = pairType then
    let (key, entered) := renderPart s n entered (s.child? c pairKey)
    let (value, entered) := renderPart s n entered (s.child? c pairValue)
    (key ++ "=" ++ value, entered)
  else if listed then ((s.get c).value, entered)
  else ((s.get c).name ++ "=" ++ (s.get c).value, entered)
termination_by (n, 2)
decreasing_by
  · exact lex_entered entered 1
  all_goals exact .right _ (Nat.lt_succ_self 1)

/-- The text of the key or the value in a child of a map; none of what is missing. -/
def renderPart (s : Store) (n : Nat) (entered : s.Entered n) :
    Option BindingId → String × s.Entered n
  | none => ("", entered)
  | some b =>
    let (text, left) := render s entered.1 b
    (text, ⟨left.1, Nat.le_trans left.2 entered.2⟩)
termination_by (n, 1)
decreasing_by exact lex_entered entered 0

/-- The texts of children, one after the other. -/
def renderItems (s : Store) (n : Nat) (entered : s.Entered n) (listed : Bool) :
    List BindingId → List String × s.Entered n
  | [] => ([], entered)
  | c :: cs =>
    let (text, entered) := renderItem s n entered listed c
    let (texts, entered) := renderItems s n entered listed cs
    (text :: texts, entered)
termination_by cs => (n, cs.length + 3)

end

/-- The text of a binding. -/
def display (s : Store) (b : BindingId) : String :=
  (s.render [] b).1

end Store

end Retrace
