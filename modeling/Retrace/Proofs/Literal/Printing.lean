import Retrace.Proofs.Literal.Parts

/-!
# Reading printed values back

A value is printed with strings in quotes, tokens and lists as they stand, and objects as fields in
braces, with any blanks between. The reader is no inverse of this on all trees: a token may hold a
comma, a list may close early. On the trees whose parts end where they should it is, but for one
case: of a list that is a whole value the blanks at its end are not kept.

* `Prints`: how values are printed.
* `Separable`, `Printable`: the trees whose parts can be told apart, inside an object and as whole
  values.
* `readValue_prints`, `readField_prints`: the readers take exactly what was printed.
* **`parse_eq_self_iff_of_prints`**: when a printed value is read back as it was.
-/

namespace Retrace

namespace Literal

open Text (Blank isBlank skipBlanks)

/-! ## Printed texts -/

mutual

/-- The text is one that the value is printed as. -/
inductive Prints : Literal → List Char → Prop
  | quoted (text : String) : Prints (.quoted text) (inQuotes text.toList)
  | bare (text : String) : Prints (.bare text) text.toList
  | array (text : String) : Prints (.array text) text.toList
  | object {fields : List (String × Literal)} {cs : List Char} (h : PrintsFields fields cs) :
    Prints (.object fields) ('{' :: (cs ++ ['}']))

/-- The text is one that the fields are printed as between the braces, with commas between the
fields. -/
inductive PrintsFields : List (String × Literal) → List Char → Prop
  | none {w : List Char} (hw : Blank w) : PrintsFields [] w
  | last {name : String} {v : Literal} {cs : List Char} (h : PrintsField name v cs) :
    PrintsFields [(name, v)] cs
  | more {name : String} {v : Literal} {fields : List (String × Literal)} {cs ds : List Char}
    (h : PrintsField name v cs) (hf : PrintsFields fields ds) (hne : fields ≠ []) :
    PrintsFields ((name, v) :: fields) (cs ++ ',' :: ds)

/-- The text is one that a field is printed as: its name in quotes, a colon and its value. -/
inductive PrintsField : String → Literal → List Char → Prop
  | mk {name : String} {v : Literal} {w₁ w₂ w₃ w₄ cs : List Char} (h₁ : Blank w₁) (h₂ : Blank w₂)
    (h₃ : Blank w₃) (h₄ : Blank w₄) (h : Prints v cs) :
    PrintsField name v (w₁ ++ (inQuotes name.toList ++ (w₂ ++ ':' :: (w₃ ++ (cs ++ w₄)))))

end

mutual

/-- Inside an object, the value ends where it should: a token has no comma and no brace outside
parentheses, and the brackets of a list balance for the first time at its end. -/
def Separable : Literal → Prop
  | .quoted _ => True
  | .bare text => Token text.toList ∧ Closed text.toList
  | .array text => Balanced text.toList
  | .object fields => SeparableFields fields

/-- All values of the fields end where they should. -/
def SeparableFields : List (String × Literal) → Prop
  | [] => True
  | (_, v) :: fields => v.Separable ∧ SeparableFields fields

end

/-- As a whole text, the value can be told from values of the other kinds, and what is inside it
ends where it should. -/
def Printable : Literal → Prop
  | .quoted _ => True
  | .bare text => Token text.toList
  | .array text => text.toList.head? = some '['
  | .object fields => SeparableFields fields

/-! ## Steps of the readers -/

section Steps

variable {outer : List OpenObject} {o : OpenObject} {fields : List (String × Literal)}
  {cs rest behind w : List Char}

theorem resume_blank (hw : Blank w) (cs : List Char) :
    resume outer fields (w ++ cs) = resume outer fields cs := by
  rw [resume, resume, Text.skipBlanks_append hw]

theorem resume_comma (rest : List Char) :
    resume outer fields (',' :: rest) = readField outer fields rest := by
  rw [resume]
  rfl

theorem resume_brace (rest : List Char) :
    resume outer fields ('}' :: rest) = closeObject outer fields rest := by
  rw [resume]
  rfl

theorem readField_brace (hw : Blank w) (rest : List Char) :
    readField outer fields (w ++ '}' :: rest) = closeObject outer fields rest := by
  have hs := Text.skipBlanks_append_cons hw (c := '}') rfl rest
  rw [readField]
  split <;> simp_all

theorem readField_key {c : Char} {key behindKey : List Char} (hs : skipBlanks cs = c :: rest)
    (hc : c ≠ '}') (hk : takeKey (c :: rest) = some (key, behindKey))
    (hb : skipBlanks behindKey = ':' :: behind) :
    readField outer fields cs = readValue outer ⟨fields, String.ofList key⟩ behind := by
  rw [readField]
  split
  · next h => simp [hs] at h
  · next h =>
    obtain ⟨rfl, rfl⟩ := List.cons.inj (h.symm.trans hs)
    rw [if_neg hc]
    split
    · next h => simp [hk] at h
    · next h =>
      obtain ⟨rfl, rfl⟩ := Prod.mk.inj (Option.some.inj (h.symm.trans hk))
      split
      · next h => simp [hb] at h
      · next h =>
        obtain ⟨rfl, rfl⟩ := List.cons.inj (h.symm.trans hb)
        rw [if_pos rfl]

theorem readField_name {w₂ : List Char} (hw : Blank w) (hw₂ : Blank w₂) (name : String)
    (rest : List Char) :
    readField outer fields (w ++ (inQuotes name.toList ++ (w₂ ++ ':' :: rest))) =
      readValue outer ⟨fields, name⟩ rest := by
  have he : inQuotes name.toList ++ (w₂ ++ ':' :: rest) =
      '"' :: (escape name.toList ++ '"' :: (w₂ ++ ':' :: rest)) := by simp [inQuotes]
  have hk : takeKey ('"' :: (escape name.toList ++ '"' :: (w₂ ++ ':' :: rest))) = _ :=
    takeQuoted_escape name.toList (w₂ ++ ':' :: rest)
  rw [he, readField_key (Text.skipBlanks_append_cons hw rfl _) (by decide) hk
    (Text.skipBlanks_append_cons hw₂ rfl rest), String.ofList_toList]

theorem readValue_object (hw : Blank w) (rest : List Char) :
    readValue outer o (w ++ '{' :: rest) = readField (o :: outer) [] rest := by
  have hs := Text.skipBlanks_append_cons hw (c := '{') rfl rest
  rw [readValue]
  split <;> simp_all

theorem readValue_leaf {v : Literal} (hw : Blank w)
    (hc : ∀ c ∈ cs.head?, isBlank c = false ∧ c ≠ '{') (hl : takeLeaf cs = some (v, behind)) :
    readValue outer o (w ++ cs) = resume outer (o.complete v) behind := by
  cases cs with
  | nil => simp [takeLeaf, takeBare] at hl
  | cons c cs =>
    obtain ⟨hb, hn⟩ := hc c rfl
    have hs := Text.skipBlanks_append_cons hw hb cs
    rw [readValue]
    split
    · next h => simp [hs] at h
    · next h =>
      obtain ⟨rfl, rfl⟩ := List.cons.inj (h.symm.trans hs)
      rw [if_neg hn]
      split <;> simp_all

end Steps

/-! ## Reading printed fields back -/

theorem readValue_bare {outer : List OpenObject} {o : OpenObject} {cs w w' : List Char} {d : Char}
    (ht : Token cs) (hc : Closed cs) (hw : Blank w) (hw' : Blank w') (hd : d ∈ [',', '}'])
    (rest : List Char) :
    readValue outer o (w ++ (cs ++ (w' ++ d :: rest))) =
      resume outer (o.complete (.bare (String.ofList cs))) (d :: rest) := by
  cases cs with
  | nil =>
    -- Nothing stands between the blanks of both sides.
    have hb : isBlank d = false ∧ d ≠ '{' := by
      rcases List.mem_pair.1 hd with rfl | rfl <;> decide
    have hl := takeLeaf_bare ht hc (w := []) (by simp [Blank]) hd rest
    have hww : Blank (w ++ w') := fun c hm => (List.mem_append.1 hm).elim (hw c) (hw' c)
    rw [List.nil_append, ← List.append_assoc]
    exact readValue_leaf hww (by simpa using hb) hl
  | cons c cs =>
    have hp := ht.plain c rfl
    exact readValue_leaf hw (by simp_all [ht.unpadded.head c rfl]) (takeLeaf_bare ht hc hw' hd rest)

mutual

theorem readValue_prints {v : Literal} {cs : List Char} (hp : Prints v cs) (hv : v.Separable)
    (outer : List OpenObject) (o : OpenObject) {w w' : List Char} (hw : Blank w) (hw' : Blank w')
    {d : Char} (hd : d ∈ [',', '}']) (rest : List Char) :
    readValue outer o (w ++ (cs ++ (w' ++ d :: rest))) =
      resume outer (o.complete v) (d :: rest) := by
  cases hp with
  | quoted text =>
    rw [readValue_leaf hw (by simp [inQuotes, isBlank]) (takeLeaf_quoted _ _), resume_blank hw',
      String.ofList_toList]
  | bare text => rw [readValue_bare hv.1 hv.2 hw hw' hd, String.ofList_toList]
  | array text =>
    have hc : ∀ c ∈ (text.toList ++ (w' ++ d :: rest)).head?, isBlank c = false ∧ c ≠ '{' := by
      simp [List.head?_append, hv.opens, isBlank]
    rw [readValue_leaf hw hc (takeLeaf_array hv _), resume_blank hw', String.ofList_toList]
  | @object fields cs h =>
    have he : '{' :: (cs ++ ['}']) ++ (w' ++ d :: rest) = '{' :: (cs ++ '}' :: (w' ++ d :: rest)) :=
      by simp
    rw [he, readValue_object hw, readField_prints h hv, closeObject, resume_blank hw',
      List.nil_append]

theorem readField_prints {fields : List (String × Literal)} {cs : List Char}
    (hp : PrintsFields fields cs) (hf : SeparableFields fields) (outer : List OpenObject)
    (done : List (String × Literal)) (rest : List Char) :
    readField outer done (cs ++ '}' :: rest) = closeObject outer (done ++ fields) rest := by
  cases hp with
  | none hw => rw [readField_brace hw, List.append_nil]
  | last h =>
    obtain ⟨h₁, h₂, h₃, h₄, h⟩ := h
    simp only [List.append_assoc, List.cons_append]
    rw [readField_name h₁ h₂, readValue_prints h hf.1 outer _ h₃ h₄ (by simp), resume_brace]
    rfl
  | more h hm hne =>
    obtain ⟨h₁, h₂, h₃, h₄, h⟩ := h
    simp only [List.append_assoc, List.cons_append]
    rw [readField_name h₁ h₂, readValue_prints h hf.1 outer _ h₃ h₄ (by simp), resume_comma,
      readField_prints hm hf.2, OpenObject.complete, List.append_assoc]
    rfl

end

/-! ## Reading whole values back -/

section Parse

variable {v : Literal} {cs w w' : List Char} {text : String}

theorem parse_append (hw : Blank w) (hw' : Blank w') (cs : List Char) :
    parse (String.ofList (w ++ (cs ++ w'))) = parse (String.ofList cs) := by
  unfold parse
  rw [String.toList_ofList, String.toList_ofList, Text.trimChars_append hw hw']

theorem parse_quoted (text : String) :
    parse (String.ofList (inQuotes text.toList)) = .quoted text := by
  have ht : Text.trimChars (inQuotes text.toList) = inQuotes text.toList :=
    (Text.Unpadded.enclosed rfl rfl _).trimChars
  rw [parse, String.toList_ofList, ht]
  simp [inQuotes, takeQuoted_escape, skipBlanks]

theorem parse_bare (h : Token text.toList) : parse text = .bare text := by
  have hp := h.plain
  rw [parse, h.unpadded.trimChars]
  split <;> simp_all [String.ofList_toList]

/-- Of a list that is the whole text, the blanks at its end are not kept. -/
theorem parse_array (h : text.toList.head? = some '[') :
    parse text = .array (String.ofList (Text.dropEndWhile isBlank text.toList)) := by
  obtain ⟨t, ht⟩ : ∃ t, text.toList = '[' :: t := ⟨_, List.eq_cons_of_mem_head? h⟩
  have hb : isBlank '[' = false := rfl
  rw [parse, Text.trimChars, ht, Text.skipBlanks_cons hb, Text.dropEndWhile_cons hb]
  rfl

theorem parse_object {fields : List (String × Literal)} (hp : PrintsFields fields cs)
    (hf : SeparableFields fields) :
    parse (String.ofList ('{' :: (cs ++ ['}']))) = .object fields := by
  have ht : Text.trimChars ('{' :: (cs ++ ['}'])) = '{' :: (cs ++ ['}']) :=
    (Text.Unpadded.enclosed rfl rfl _).trimChars
  rw [parse, String.toList_ofList, ht]
  simp [readField_prints hp hf, closeObject, skipBlanks]

/-- **A printed value is read back as it was**, whatever blanks are around it and between its
tokens, unless it is a list with blanks at its end: nothing tells these from blanks around it. -/
theorem parse_eq_self_iff_of_prints (hv : v.Printable) (hp : Prints v cs) (hw : Blank w)
    (hw' : Blank w') :
    parse (String.ofList (w ++ (cs ++ w'))) = v ↔
      ∀ text, v = .array text → ∀ c ∈ text.toList.getLast?, isBlank c = false := by
  rw [parse_append hw hw']
  cases hp with
  | quoted text => simp [parse_quoted]
  | bare text => rw [String.ofList_toList, parse_bare hv]; simp
  | array text =>
    rw [String.ofList_toList, parse_array hv]
    simp only [array.injEq, forall_eq', ← Text.dropEndWhile_eq_self_iff]
    rw [← String.toList_inj, String.toList_ofList]
  | object h => rw [parse_object h hv]; simp

/-- An object with a token that holds a comma, a list that holds a bracket in a string, and an
object without fields, with blanks around it and between its tokens. -/
theorem parse_blob_record :
    parse " \x7b\x22b\x22 : BLOB(5, 6) ,\x22l\x22:[\x22]\x22],\x22\x22:\x7b \x7d\x7d\n" =
      .object [("b", .bare "BLOB(5, 6)"), ("l", .array "[\x22]\x22]"), ("", .object [])] := by
  have hv : (Literal.object [("b", .bare "BLOB(5, 6)"), ("l", .array "[\x22]\x22]"),
      ("", .object [])]).Printable :=
    ⟨⟨⟨⟨by simp [Text.isBlank], by simp [Text.isBlank]⟩, by simp⟩, by decide, by decide⟩,
      balanced_cons.2 (by decide), trivial, trivial⟩
  have tight : Blank [] := by decide
  have spaced : Blank [' '] := by decide
  have ended : Blank ['\n'] := by decide
  have hb : PrintsField "b" (.bare "BLOB(5, 6)") _ := .mk tight spaced spaced spaced (.bare _)
  have hl : PrintsField "l" (.array "[\x22]\x22]") _ := .mk tight tight tight tight (.array _)
  have ho : PrintsField "" (.object []) _ := .mk tight tight tight tight (.object (.none spaced))
  have hp := Prints.object (.more hb (.more hl (.last ho) (by simp)) (by simp))
  exact (parse_eq_self_iff_of_prints hv hp spaced ended).2 (by simp)

/-- A list with a blank at its end is read without it. -/
theorem parse_padded_list :
    (Literal.array "[1] ").Printable ∧ Prints (.array "[1] ") "[1] ".toList ∧
      parse "[1] " = .array "[1]" ∧ Literal.array "[1]" ≠ .array "[1] " := by
  have hb : "[1] ".toList.head? = some '[' := by decide
  refine ⟨hb, .array _, ?_, by simp⟩
  rw [parse_array hb, array.injEq]
  decide

end Parse

end Literal

end Retrace
