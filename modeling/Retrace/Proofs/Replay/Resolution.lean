import Retrace.Proofs.Replay.ClassScopes
import Retrace.TypeIndex

/-!
# Sources of calls

Types are filed under their dotted names, and looked up by the signatures of calls. A reference such
as `ns/C$I` becomes `ns.C.I`, and that is what remains of the signature of a method once its
parameters and its name are cut off, whatever the parameters hold.

* `TypeRef`: the references of classes, as they are filed and as signatures spell them.
* `dottedName_text`: filing spells a reference as signatures do.
* `TypeIndex.get?_ofFilings`: what is filed last under a name counts.
* **`TypeIndex.resolve_ofFilings`**: signatures find the source of their type.
-/

namespace Retrace

/-! ## References of classes -/

/-- What is filed for a class: its name, behind its namespace and in front of the inner class when
there are such. -/
structure TypeRef where
  /-- The namespace. -/
  namespaceName : Option String := none
  /-- The class. -/
  className : String
  /-- The inner class. -/
  innerName : Option String := none

namespace TypeRef

/-- The names of the reference with one character behind the namespace, and one in front of the
inner class. -/
def joined (behind before : Char) (c : TypeRef) : List Char :=
  c.namespaceName.elim [] (fun n => n.toList ++ [behind]) ++ c.className.toList ++
    c.innerName.elim [] fun i => before :: i.toList

/-- The reference as it is filed. -/
def text (c : TypeRef) : String := String.ofList (c.joined '/' '$')

/-- The reference as signatures spell it. -/
def dotted (c : TypeRef) : String := String.ofList (c.joined '.' '.')

/-- The names of the reference. -/
def names (c : TypeRef) : List String :=
  c.namespaceName.toList ++ c.className :: c.innerName.toList

/-- No name has a character at which references and signatures are cut, and the namespace is not
that of triggers. -/
structure WellFormed (c : TypeRef) : Prop where
  names : ∀ name ∈ c.names, ∀ d ∈ ['/', '$', '.', '(', ')'], d ∉ name.toList
  untriggered : c.namespaceName ≠ some "__sfdc_trigger"

variable {c : TypeRef}

theorem mem_joined {behind before d : Char} (h : d ∈ c.joined behind before) :
    (d = behind ∧ c.namespaceName.isSome) ∨ (d = before ∧ c.innerName.isSome) ∨
      ∃ name ∈ c.names, d ∈ name.toList := by
  obtain ⟨n, k, i⟩ := c
  cases n <;> cases i <;> simp [joined, names] at h ⊢ <;> tauto

namespace WellFormed

theorem not_mem_joined (h : c.WellFormed) {behind before d : Char}
    (hd : d ∈ ['/', '$', '.', '(', ')']) (hbehind : d ≠ behind ∨ c.namespaceName = none)
    (hbefore : d ≠ before ∨ c.innerName = none) : d ∉ c.joined behind before := by
  intro hmem
  rcases mem_joined hmem with ⟨rfl, hsome⟩ | ⟨rfl, hsome⟩ | ⟨name, hname, hin⟩
  · simp_all
  · simp_all
  · exact h.names name hname d hd hin

end WellFormed

end TypeRef

/-! ## Filing -/

namespace dottedName

theorem toDot_of_not_mem {d : Char} {cs : List Char} (h : d ∉ cs) : toDot d cs = cs := by
  rw [toDot, Text.cutFirst_of_not_mem h]

theorem toDot_append {d : Char} {before : List Char} (h : d ∉ before) (after : List Char) :
    toDot d (before ++ d :: after) = before ++ '.' :: after := by
  rw [toDot, Text.cutFirst_append h]

end dottedName

namespace TypeRef.WellFormed

variable {c : TypeRef}

theorem toDot_slash (h : c.WellFormed) :
    dottedName.toDot '/' (c.joined '/' '$') = c.joined '.' '$' := by
  cases hn : c.namespaceName with
  | none =>
    have habsent : '/' ∉ c.joined '/' '$' :=
      h.not_mem_joined (by decide) (.inr hn) (.inl (by decide))
    rw [dottedName.toDot_of_not_mem habsent, joined, joined, hn]
    rfl
  | some n =>
    have habsent : '/' ∉ n.toList := h.names n (by simp [TypeRef.names, hn]) '/' (by decide)
    have hcut := dottedName.toDot_append habsent
      (c.className.toList ++ c.innerName.elim [] fun i => '$' :: i.toList)
    simpa [joined, hn] using hcut

theorem toDot_dollar (h : c.WellFormed) :
    dottedName.toDot '$' (c.joined '.' '$') = c.joined '.' '.' := by
  cases hi : c.innerName with
  | none =>
    have habsent : '$' ∉ c.joined '.' '$' :=
      h.not_mem_joined (by decide) (.inl (by decide)) (.inr hi)
    rw [dottedName.toDot_of_not_mem habsent, joined, joined, hi]
    rfl
  | some i =>
    have habsent : '$' ∉ c.joined '.' '.' :=
      h.not_mem_joined (by decide) (.inl (by decide)) (.inl (by decide))
    have habsent' : '$' ∉ c.namespaceName.elim [] (fun n => n.toList ++ ['.']) ++
        c.className.toList := fun hmem => habsent (List.mem_append_left _ hmem)
    have hcut := dottedName.toDot_append habsent' i.toList
    simpa [joined, hi] using hcut

/-- The reference of a class is not that of a trigger. -/
theorem startsWith_text (h : c.WellFormed) : Text.startsWith c.text triggerUnit = false := by
  rw [Bool.eq_false_iff]
  intro hstarts
  obtain ⟨rest, hrest⟩ := List.isPrefixOf_iff_prefix.1 hstarts
  have hunit : triggerUnit.toList = "__sfdc_trigger".toList ++ ['/'] := by decide
  have hjoined : c.joined '/' '$' = "__sfdc_trigger".toList ++ '/' :: rest := by
    rw [text, String.toList_ofList, hunit, List.append_assoc] at hrest
    exact hrest.symm
  -- what stands in front of the first slash is the namespace
  have htrigger : '/' ∉ "__sfdc_trigger".toList := by decide
  have hcut := Text.cutFirst_append htrigger rest
  rw [← hjoined] at hcut
  cases hn : c.namespaceName with
  | none =>
    have habsent : '/' ∉ c.joined '/' '$' :=
      h.not_mem_joined (by decide) (.inr hn) (.inl (by decide))
    rw [Text.cutFirst_of_not_mem habsent] at hcut
    cases hcut
  | some n =>
    have habsent : '/' ∉ n.toList := h.names n (by simp [TypeRef.names, hn]) '/' (by decide)
    have hcut' := Text.cutFirst_append habsent
      (c.className.toList ++ c.innerName.elim [] fun i => '$' :: i.toList)
    have hsame : c.joined '/' '$' = n.toList ++ '/' ::
        (c.className.toList ++ c.innerName.elim [] fun i => '$' :: i.toList) := by
      simp [joined, hn]
    rw [hsame, hcut'] at hcut
    have hname : n.toList = "__sfdc_trigger".toList := (Prod.mk.inj (Option.some.inj hcut)).1
    exact h.untriggered (hn.trans (congrArg some (String.toList_inj.1 hname)))

/-- **A reference is filed under the name that signatures have for it.** -/
theorem dottedName_text (h : c.WellFormed) : dottedName c.text = c.dotted := by
  rw [dottedName, h.startsWith_text, text, String.toList_ofList, h.toDot_slash, h.toDot_dollar,
    dotted]
  rfl

end TypeRef.WellFormed

namespace TypeIndex

/-- Types filed one after the other. -/
def ofFilings (filings : List (String × Locator)) : TypeIndex :=
  filings.foldl (fun t p => t.insert p.1 p.2) .empty

theorem get?_insert (t : TypeIndex) (typeref name : String) (source : Locator) :
    (t.insert typeref source).sources.get? name =
      if name = dottedName typeref then some source else t.sources.get? name :=
  Table.get?_insert ..

theorem get?_foldl_insert {name : String} {filings : List (String × Locator)}
    (h : ∀ p ∈ filings, dottedName p.1 ≠ name) (t : TypeIndex) :
    (filings.foldl (fun t p => t.insert p.1 p.2) t).sources.get? name = t.sources.get? name := by
  induction filings generalizing t with
  | nil => rfl
  | cons p filings ih =>
    obtain ⟨hp, hrest⟩ := List.forall_mem_cons.1 h
    rw [List.foldl_cons, ih hrest, get?_insert, if_neg hp.symm]

/-- **What is filed last under a name counts.** -/
theorem get?_ofFilings (earlier : List (String × Locator)) {later : List (String × Locator)}
    {typeref : String} (h : ∀ p ∈ later, dottedName p.1 ≠ dottedName typeref) (source : Locator) :
    (ofFilings (earlier ++ (typeref, source) :: later)).sources.get? (dottedName typeref) =
      some source := by
  rw [ofFilings, List.foldl_append, List.foldl_cons, get?_foldl_insert h, get?_insert, if_pos rfl]

/-! ## Looking up -/

theorem resolve_of_not_endsWith {signature : String} (h : Text.endsWith signature ")" = false)
    (t : TypeIndex) : t.resolve signature = t.sources.get? signature := by
  rw [resolve, h]
  rfl

theorem resolve_of_endsWith {signature : String} (h : Text.endsWith signature ")" = true)
    (t : TypeIndex) : t.resolve signature = t.sources.get? (Signature.className signature) := by
  rw [resolve, if_pos h]

end TypeIndex

namespace Text

theorem endsWith_append (s w : String) : endsWith (s ++ w) w = true := by
  rw [endsWith, List.isSuffixOf_iff_suffix, String.toList_append]
  exact List.suffix_append ..

theorem endsWith_of_not_mem {s w : String} {d : Char} (hw : d ∈ w.toList) (h : d ∉ s.toList) :
    endsWith s w = false := by
  rw [Bool.eq_false_iff]
  intro hends
  exact h ((List.isSuffixOf_iff_suffix.1 hends).subset hw)

end Text

/-- **Signatures find their type.** Types are filed one after the other. The source filed last for a
class is found for the dotted name of the class and for the signatures of its methods, whatever
their parameters; that of a trigger is found for the name of its code unit. In every index a
signature with parameters is looked up by the class whose statics the frame of its call has. -/
theorem TypeIndex.resolve_ofFilings (earlier : List (String × Locator))
    {later : List (String × Locator)} {typeref : String}
    (latest : ∀ p ∈ later, dottedName p.1 ≠ dottedName typeref) (source : Locator) :
    let t := ofFilings (earlier ++ (typeref, source) :: later)
    (∀ c : TypeRef, c.WellFormed → c.text = typeref →
      dottedName typeref = c.dotted ∧ t.resolve c.dotted = some source ∧
      ∀ m args : String, '.' ∉ m.toList → '(' ∉ m.toList →
        t.resolve (c.dotted ++ "." ++ m ++ "(" ++ args ++ ")") = some source) ∧
    (Text.startsWith typeref triggerUnit = true → Text.endsWith typeref ")" = false →
      t.resolve typeref = some source) ∧
    ∀ (t : TypeIndex) (r : Replay) (signature : String), Text.endsWith signature ")" = true →
      let s := ({ r with resolver := t.resolve }.handle (.call signature)).state
      ∃ frame activation, s.top? = some frame ∧ s.topActivation? = some activation ∧
        t.resolve signature = t.sources.get? activation.className ∧
        frame.source = (t.sources.get? activation.className).getD .unknown ∧
        s.statics.scopeOf? activation.className = some activation.statics := by
  intro t
  have hfound := get?_ofFilings earlier latest source
  refine ⟨?_, ?_, ?_⟩
  · rintro c hc rfl
    have hname := hc.dottedName_text
    have habsent : ∀ d ∈ ['(', ')'], d ∉ c.dotted.toList := by
      intro d hd
      rw [TypeRef.dotted, String.toList_ofList]
      rcases List.mem_pair.1 hd with rfl | rfl <;>
        exact hc.not_mem_joined (by decide) (.inl (by decide)) (.inl (by decide))
    rw [hname] at hfound
    refine ⟨hname, ?_, fun m args hm hm' => ?_⟩
    · rw [resolve_of_not_endsWith (Text.endsWith_of_not_mem (by decide) (habsent ')' (by decide)))]
      exact hfound
    · have hclass : Signature.className (c.dotted ++ "." ++ m ++ "(" ++ args ++ ")") = c.dotted := by
        have hbehind : c.dotted ++ "." ++ m ++ "(" ++ args ++ ")" =
            c.dotted ++ "." ++ m ++ "(" ++ (args ++ ")") := String.append_assoc
        rw [hbehind, Signature.className_method _ (habsent '(' (by decide)) hm hm']
      rw [resolve_of_endsWith (Text.endsWith_append ..), hclass]
      exact hfound
  · intro hstarts hends
    have hname : dottedName typeref = typeref := by rw [dottedName, if_pos hstarts]
    rw [resolve_of_not_endsWith hends]
    rwa [hname] at hfound
  · intro t r signature hends
    obtain ⟨frame, activation, htop, -, hsource, ha, hclass, hscope⟩ :=
      Replay.top_call { r with resolver := t.resolve } signature
    have hactivation :
        ({ r with resolver := t.resolve }.handle (.call signature)).state.topActivation? =
          some activation := by
      rw [State.topActivation?, htop, Option.bind_some, ha]
    have hresolve := resolve_of_endsWith hends t
    rw [← hclass] at hresolve
    refine ⟨frame, activation, htop, hactivation, hresolve, ?_, hscope⟩
    have hscript : signature ≠ inlineScript := by
      rintro rfl
      revert hends
      decide
    rw [hsource, Replay.locate, if_neg hscript, ← hresolve]

/-- An inner class that was filed twice is found where it was filed last, by the signature of a
method with dots and parentheses among its parameters. -/
theorem TypeIndex.resolve_innerClass :
    (∀ p ∈ [("Foo", Locator.ofPath "Foo.cls")], dottedName p.1 ≠ dottedName "ns/Bar$Inner") ∧
    (ofFilings ([("ns/Bar$Inner", .unknown)] ++ ("ns/Bar$Inner", .ofPath "Bar.cls") ::
      [("Foo", .ofPath "Foo.cls")])).resolve "ns.Bar.Inner.go(Map<String,Foo.Bar>,f(x.y))" =
        some (.ofPath "Bar.cls") := by
  have latest : ∀ p ∈ [("Foo", Locator.ofPath "Foo.cls")],
      dottedName p.1 ≠ dottedName "ns/Bar$Inner" := by decide +kernel
  have hclass : TypeRef.WellFormed
      { namespaceName := some "ns", className := "Bar", innerName := some "Inner" } :=
    ⟨by simp [TypeRef.names], by simp⟩
  obtain ⟨hmethods, -, -⟩ :=
    TypeIndex.resolve_ofFilings [("ns/Bar$Inner", .unknown)] latest (.ofPath "Bar.cls")
  obtain ⟨-, -, hmethod⟩ := hmethods _ hclass (by decide)
  exact ⟨latest, hmethod "go" "Map<String,Foo.Bar>,f(x.y)" (by decide) (by decide)⟩

end Retrace
