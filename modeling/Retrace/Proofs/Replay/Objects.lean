import Retrace.Proofs.Literal.Printing
import Retrace.Proofs.Replay.Runs
import Retrace.Proofs.State.Decoded

/-!
# Objects of a replay

Whatever a replay has gone through, the first assignment of an object to a variable shows exactly
that object: its fields in order, keys of known objects as aliases of them, and objects in it as
bindings of their own.

* `Replay.Rebuilds`: the states that the log has rebuilt during a run.
* **`Replay.takes_performAll`**: what such an assignment leaves behind in them.
-/

namespace Retrace

namespace Replay

/-- The states that the log has rebuilt during a run: before and behind each line, and at the
end. -/
inductive Rebuilds (r : Replay) (ops : List Operation) : State → Prop
  | before {t : Turn} (h : t ∈ r.turnsAlong ops) : Rebuilds r ops t.before
  | after {t : Turn} (h : t ∈ r.turnsAlong ops) : Rebuilds r ops t.after
  | last : Rebuilds r ops (r.performAll ops).live

theorem Rebuilds.wellFormed {r : Replay} {ops : List Operation} {s : State}
    (h : r.Rebuilds ops s) (hr : r.live.WellFormed) : s.WellFormed := by
  obtain ⟨turns, last⟩ := wellFormed_turnsAlong hr ops
  cases h with
  | before ht => exact (turns _ ht).1
  | after ht => exact (turns _ ht).2
  | last => exact last

/-- **An object is decoded faithfully** when it is assigned to a variable of which the type is no
collection, under a key that is not known yet. A variable called `this` must not be bound before. -/
theorem takes_performAll (config : Config) (resolver : Resolver) (lines : List String)
    (ops : List Operation) {s : State} (hs : (fresh config resolver lines).Rebuilds ops s)
    {a : Assignment} {key : String} (reference : a.reference = some key)
    (new : s.references.get? key = none) {b : BindingId} (target : s.assigned a = .variable b)
    (single : TypeName.isCollection (s.store.get b).typeName = false)
    (free : ¬ ((Text.ownerAndLeaf a.name).2 = "this" ∧ (s.store.get b).reference.isSome))
    {fields : List (String × Literal)} (value : Literal.parse a.value = .object fields)
    (distinct : (Literal.object fields).Distinct) :
    ∃ entry, s.Takes b entry key fields (s.assign a) :=
  State.takes_assign (hs.wellFormed (wellFormed_fresh config resolver lines).live).sound reference
    new target single free value distinct

/-- An object is known, and another variable is declared. -/
def declaredLog : List String :=
  ["62.0 APEX_CODE,FINEST",
    "0|METHOD_ENTRY|[1]|1|A.f()",
    "0|VARIABLE_SCOPE_BEGIN|[2]|a|A|true|false",
    "0|VARIABLE_SCOPE_BEGIN|[2]|b|A|true|false",
    "0|VARIABLE_ASSIGNMENT|[2]|b|\x7b\x22y\x22:1\x7d|0x2",
    "0|STATEMENT_EXECUTE|[4]"]

/-- An object that refers to itself and to the known one, with an object and texts in it. -/
def selfText : String :=
  "\x7b\x22self\x22:\x220x1\x22,\x22other\x22:0x2,\x22in\x22:\x7b\x22l\x22:[1]\x7d," ++
    "\x22s\x22:\x22x\x22\x7d"

open Literal in
theorem parse_selfText :
    Literal.parse selfText =
      .object [("self", .quoted "0x1"), ("other", .bare "0x2"),
        ("in", .object [("l", .array "[1]")]), ("s", .quoted "x")] := by
  have tight : Text.Blank [] := by decide
  have self : PrintsField "self" (.quoted "0x1") _ := .mk tight tight tight tight (.quoted _)
  have other : PrintsField "other" (.bare "0x2") _ := .mk tight tight tight tight (.bare _)
  have list : PrintsField "l" (.array "[1]") _ := .mk tight tight tight tight (.array _)
  have inner : PrintsField "in" (.object [("l", .array "[1]")]) _ :=
    .mk tight tight tight tight (.object (.last list))
  have text : PrintsField "s" (.quoted "x") _ := .mk tight tight tight tight (.quoted _)
  have printed : PrintsFields _ _ :=
    .more self (.more other (.more inner (.last text) (by simp)) (by simp)) (by simp)
  refine (congrArg parse (by decide +kernel)).trans (parse_object printed ?_)
  exact ⟨trivial,
    ⟨⟨⟨by simp [Text.isBlank], by simp [Text.isBlank]⟩, by simp⟩, by decide, by decide⟩,
    ⟨balanced_cons.2 (by decide), trivial⟩, trivial, trivial⟩

set_option maxRecDepth 100000 in
/-- The object is known when its field that names it is read, so this field is an alias of it, as the
next one is of the other object. The field `in` holds an object of its own with the list, and the
last field shows its text. -/
theorem takes_declaredLog :
    let s := ((fresh {} (fun _ => none) declaredLog).performAll [.advance, .advance]).live
    let t := s.assign ⟨"a", selfText, some "0x1"⟩
    s.references.get? "0x1" = none ∧ (t.store.get ⟨0⟩).reference = some "0x1" ∧
      ∃ entry self other inner text list, t.references.get? "0x1" = some entry ∧
        (t.store.get ⟨0⟩).children = (t.store.get entry).children ∧
        (t.store.children entry).entries =
          [("self", self), ("other", other), ("in", inner), ("s", text)] ∧
        (t.store.get self).reference = some "0x1" ∧ (t.store.get other).reference = some "0x2" ∧
        (t.store.get inner).reference = none ∧
        (t.store.children inner).entries = [("l", list)] ∧
        (t.store.get list).value = "[1]" ∧ (t.store.get text).value = "'x'" := by
  intro s t
  obtain ⟨new, target, single⟩ : s.references.get? "0x1" = none ∧
      s.assigned ⟨"a", selfText, some "0x1"⟩ = .variable ⟨0⟩ ∧
      TypeName.isCollection (s.store.get ⟨0⟩).typeName = false := by decide +kernel
  obtain ⟨otherKnown, noText⟩ : s.references.get? "0x2" ≠ none ∧ s.references.get? "x" = none := by
    decide +kernel
  obtain ⟨entry, takes⟩ := takes_performAll {} (fun _ => none) declaredLog [.advance, .advance]
    .last rfl new target single (by decide +kernel) parse_selfText
    (by simp [Literal.Distinct, Literal.DistinctFields])
  rw [← takes.others "0x2" (by decide)] at otherKnown
  rw [← takes.others "x" (by decide)] at noText
  -- the children are the fields, one by one
  have fields := takes.fields
  generalize hentries : (t.store.children entry).entries = entries at fields
  cases fields with | @cons _ self _ _ _ _ hself fields => ?_
  cases fields with | @cons _ other _ _ _ _ hother fields => ?_
  cases fields with | @cons _ inner _ _ _ _ hinner fields => ?_
  cases fields with | @cons _ text _ _ _ _ htext fields => ?_
  cases fields
  cases hinner with
  | linked names => rcases names with h | h <;> cases h
  | object _ _ own _ fields =>
    generalize hlisted : (t.store.children inner).entries = entries at fields
    cases fields with | @cons _ list _ _ _ _ hlist fields => ?_
    cases fields
    cases hlist with
    | linked names => rcases names with h | h <;> cases h
    | array _ value =>
      exact ⟨new, takes.reference, entry, self, other, inner, text, list, takes.known,
        takes.children, hentries,
        hself.reference_of_known (.inl rfl) (Option.ne_none_iff_exists'.2 ⟨_, takes.known⟩),
        hother.reference_of_known (.inr rfl) otherKnown, own, hlisted, value,
        htext.value_of_unknown noText⟩

end Replay

end Retrace
