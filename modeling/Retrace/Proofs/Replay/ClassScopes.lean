import Retrace.Proofs.Replay.Runs
import Retrace.Proofs.Text.Cuts

/-!
# Scopes of classes

All frames of a class share one scope of static variables, which the class keeps for good. Which
class a frame belongs to is read off the signature of its call. A method is signed by its qualified
name; the class is what stands in front of the last dot. A constructor is signed by the name of its
class alone, and that name is read in the same way: of the name of an inner class only the outer
class remains. So the constructor of a class has the scope of its methods exactly when the name of
the class has no dot.

* `Signature.className_method`, `Signature.className_eq_self_iff`: the class of a signature.
* `Event.ofLine_of_entry`: the lines at which calls begin.
* `State.Ages`: classes keep their scopes, and calls keep theirs.
* `Replay.top_call`: the class, the scope and the source that a call begins with.
* **`Replay.sharesScope_iff`**: which constructors share the scope of the methods.
-/

namespace Retrace

/-! ## Names of classes -/

namespace Signature

theorem className_method {c m : String} (args : String) (hc : '(' ∉ c.toList)
    (hm : '.' ∉ m.toList) (hm' : '(' ∉ m.toList) :
    className (c ++ "." ++ m ++ "(" ++ args) = c := by
  have hhead : '(' ∉ c.toList ++ '.' :: m.toList := by
    rw [List.mem_append, List.mem_cons]
    rintro (h | h | h)
    · exact hc h
    · exact absurd h (by decide)
    · exact hm' h
  have hsig : (c ++ "." ++ m ++ "(" ++ args).toList =
      (c.toList ++ '.' :: m.toList) ++ '(' :: args.toList := by
    simp
  unfold className
  rw [hsig, Text.cutFirst_append hhead]
  dsimp only [Option.elim]
  rw [Text.cutLast_append hm]
  exact String.ofList_toList

/-- **The class of a bare class name** is the class itself when the name has no dot, and another
one when it has. -/
theorem className_eq_self_iff {c : String} (hc : '(' ∉ c.toList) :
    className c = c ↔ '.' ∉ c.toList := by
  unfold className
  rw [Text.cutFirst_of_not_mem hc]
  dsimp only [Option.elim]
  constructor
  · intro h hdot
    cases hcut : Text.cutLast '.' c.toList with
    | none => exact Text.cutLast_eq_none_iff.1 hcut hdot
    | some cut =>
      rw [hcut] at h
      exact Text.ne_of_cutLast hcut (by rw [← h]; simp)
  · intro hdot
    rw [Text.cutLast_of_not_mem hdot]
    exact String.ofList_toList

end Signature

/-! ## Lines -/

/-- A line of the given kind with the given last field. -/
def EntryLine (kind line signature : String) : Prop :=
  ∃ time fields, lineFields line = time :: kind :: fields ∧ fields.getLast? = some signature

theorem Event.ofLine_of_entry {kind line signature : String}
    (hkind : kind = "CONSTRUCTOR_ENTRY" ∨ kind = "METHOD_ENTRY")
    (h : EntryLine kind line signature) : Event.ofLine line = .call signature := by
  obtain ⟨time, fields, hfields, hlast⟩ := h
  cases fields with
  | nil => cases hlast
  | cons field rest =>
    have hlast' : (time :: kind :: field :: rest).getLast? = some signature := by
      simpa using hlast
    unfold Event.ofLine
    rw [hfields]
    rcases hkind with rfl | rfl
    · show (((time :: _ :: field :: rest).getLast?).map Event.call).getD .other = _
      rw [hlast']
      rfl
    · show (((time :: _ :: field :: rest).getLast?).map Event.call).getD .other = _
      rw [hlast']
      rfl

namespace State

variable {s s' s'' : State}

/-! ## Growing older -/

/-- Classes keep their scopes, and a call that is still active keeps the scope it began with. -/
structure Ages (s s' : State) : Prop where
  statics : s.statics.Extends s'.statics
  next : s.activations.next ≤ s'.activations.next
  scope : ∀ {id activation}, id < s.activations.next →
    s'.activations.get? id = some activation →
    ∃ before, s.activations.get? id = some before ∧ activation.statics = before.statics

namespace Ages

theorem refl (s : State) : s.Ages s := ⟨.refl _, Nat.le_refl _, fun _ h => ⟨_, h, rfl⟩⟩

theorem trans (h : s.Ages s') (h' : s'.Ages s'') : s.Ages s'' where
  statics := h.statics.trans h'.statics
  next := Nat.le_trans h.next h'.next
  scope hid ha := by
    obtain ⟨b, hb, hb'⟩ := h'.scope (Nat.lt_of_lt_of_le hid h.next) ha
    obtain ⟨c, hc, hc'⟩ := h.scope hid hb
    exact ⟨c, hc, hb'.trans hc'⟩

theorem of_activations (statics : s.statics.Extends s'.statics)
    (activations : s'.activations = s.activations) : s.Ages s' where
  statics := statics
  next := Nat.le_of_eq (by rw [activations])
  scope _ ha := ⟨_, activations ▸ ha, rfl⟩

theorem pushFrame {statics : Statics} (ext : s.statics.Extends statics)
    (signature className : String) (scope : ScopeId) (source : Locator) (line : Nat) :
    s.Ages (({ s with statics } : State).pushFrame signature className scope source line) where
  statics := ext
  next := Nat.le_succ _
  scope {id activation} hid ha := by
    change (s.activations.create _).get? id = some activation at ha
    rw [Handles.get?_create, if_neg (Nat.ne_of_lt hid)] at ha
    exact ⟨activation, ha, rfl⟩

theorem popFrame (s : State) : s.Ages s.popFrame := by
  unfold State.popFrame
  split
  · exact .refl s
  · next frame _ _ =>
    refine ⟨.refl _, Nat.le_refl _, fun {id activation} _ ha => ⟨activation, ?_, rfl⟩⟩
    rw [Handles.get?_remove] at ha
    split at ha
    · cases ha
    · exact ha

theorem declare (s : State) (d : Declaration) : s.Ages (s.declare d) := by
  have hd := s.declares_declare d
  generalize s.declare d = s' at hd
  cases hd with
  | nothing => exact .refl s
  | ofClass ext => exact .of_activations (ext.trans (Statics.extends_insert ..)) rfl
  | ofCall =>
    refine ⟨.refl _, Nat.le_refl _, fun {id activation} _ ha => ?_⟩
    rw [Handles.get?_update, Option.map_eq_some_iff] at ha
    obtain ⟨a, ha, rfl⟩ := ha
    refine ⟨a, ha, ?_⟩
    split <;> rfl

end Ages

end State

namespace Replay

/-- **Every event lets a state grow older.** -/
theorem ages_handle {r : Replay} (h : r.state.Sound) (e : Event) :
    r.state.Ages (r.handle e).state := by
  cases e with
  | logStart => exact .pushFrame r.state.statics.extends_createDetached _ _ _ _ _
  | call signature => exact .pushFrame (r.state.statics.extends_register _) _ _ _ _ _
  | finish signature =>
    simp only [handle, handleFinish]
    split
    · exact .refl _
    · split
      · exact .popFrame _
      · exact .refl _
  | statement line =>
    show r.state.Ages (r.state.setLine _)
    unfold State.setLine
    split
    · exact .refl _
    · exact .of_activations (.refl _) rfl
  | debug line text => exact .refl _
  | declaration d => exact .declare r.state d
  | assignment a =>
    have he := State.edits_assign (g := false) h a
    refine .of_activations ?_ he.activations
    show r.state.statics.Extends (r.state.assign a).statics
    rw [he.sameFrames.statics]
    exact .refl _
  | other => exact .refl _

theorem ages_idle {e : Option Event} {s s' : State} (h : s.Idle e s') : s.Ages s' := by
  cases h with
  | scope frame kind => exact .of_activations (.refl _) rfl
  | pop => exact .popFrame s

theorem ages_turnsAlong {r : Replay} (h : r.live.Sound) (ops : List Operation) {t : Turn}
    (ht : t ∈ r.turnsAlong ops) : t.after.Ages (r.performAll ops).live :=
  ((r.course_turnsAlong ops).grows State.Ages.refl State.Ages.trans (fun e h => ages_handle h e)
    ages_idle h).2 t ht

/-! ## Sharing -/

/-- A call begins in the class of its signature, with a new activation that holds the scope filed
for that class, and its code lives where the signature is resolved to. -/
theorem top_call (r : Replay) (signature : String) :
    ∃ frame activation, (r.handle (.call signature)).state.top? = some frame ∧
      frame.id < (r.handle (.call signature)).state.activations.next ∧
      frame.source = r.locate signature ∧
      (r.handle (.call signature)).state.activations.get? frame.id = some activation ∧
      activation.className = Signature.className signature ∧
      (r.handle (.call signature)).state.statics.scopeOf? activation.className =
        some activation.statics := by
  let className := Signature.className signature
  let activation : Activation :=
    { depth := r.state.stack.length
      signature
      className
      statics := (r.state.statics.register className).1 }
  refine ⟨⟨r.state.activations.next, signature, r.locate signature, 0⟩, activation, rfl,
    Nat.lt_succ_self _, rfl, ?_, rfl, ?_⟩
  · show (r.state.activations.create activation).get? r.state.activations.next = _
    rw [Handles.get?_create, if_pos rfl]
  · show (r.state.statics.register className).2.scopeOf? className = _
    rw [Statics.scopeOf?_register, if_pos rfl]

/-- **A call keeps the scope of its class**, in the live state and in the state shown. -/
theorem staticScope_turnsAlong (config : Config) (resolver : Resolver) (lines : List String)
    (ops : List Operation) {t : Turn} {signature : String}
    (ht : t ∈ (fresh config resolver lines).turnsAlong ops) (hcall : t.event = .call signature) :
    ∃ frame activation, t.after.top? = some frame ∧
      t.after.activations.get? frame.id = some activation ∧
      ((fresh config resolver lines).performAll ops).live.statics.scopeOf?
        (Signature.className signature) = some activation.statics ∧
      ∀ s, s = ((fresh config resolver lines).performAll ops).state ∨
          s = ((fresh config resolver lines).performAll ops).live →
        (s.activations.get? frame.id).isSome →
        s.scope? frame.id .statics = s.statics.staticsOf? (Signature.className signature) := by
  obtain ⟨r, hr, hafter⟩ := (course_turnsAlong ops _).handled ht
  obtain ⟨frame, activation, htop, hlt, -, ha, hclass, hscope⟩ := r.top_call signature
  rw [hclass] at hscope
  rw [hcall] at hafter
  rw [hafter] at htop ha hlt hscope
  have hages := ages_turnsAlong (r := fresh config resolver lines) State.sound_empty ops ht
  have hlive := hages.statics.scopeOf? hscope
  have hwf := (wellFormed_fresh config resolver lines).run ops
  refine ⟨frame, activation, htop, ha, hlive, fun s hs halive => ?_⟩
  -- the state shown has the scopes of the live one
  have same : ((fresh config resolver lines).performAll ops).live.SameFrames s := by
    rcases hs with rfl | rfl
    · exact hwf.shown
    · exact .refl _
  obtain ⟨a, has⟩ := Option.isSome_iff_exists.1 halive
  obtain ⟨globals, hal⟩ := same.activation has
  obtain ⟨before, hbefore, hstatics⟩ := hages.scope hlt hal
  cases ha.symm.trans hbefore
  have hstatics' : a.statics = activation.statics := hstatics
  rw [State.scope?, has, Statics.staticsOf?, same.statics, hlive, Option.map_some,
    Option.map_some, ← hstatics']

/-- **A constructor shares the scope of the methods of its class** exactly when the name of the
class has no dot. Let a run pass a line at which a constructor of the class `c` begins and one at
which a method of `c` begins. The two calls hold the same scope exactly in that case; and then, in
every state where both are active, whether an overlay is shown or not, both show the static
variables of `c`. -/
theorem sharesScope_iff (config : Config) (resolver : Resolver) (lines : List String)
    (ops : List Operation) {t u : Turn} {line line' c m args : String}
    (ht : t ∈ (fresh config resolver lines).turnsAlong ops)
    (hu : u ∈ (fresh config resolver lines).turnsAlong ops)
    (constructor : EntryLine "CONSTRUCTOR_ENTRY" line c) (ofLine : t.event = Event.ofLine line)
    (method : EntryLine "METHOD_ENTRY" line' (c ++ "." ++ m ++ "(" ++ args))
    (ofLine' : u.event = Event.ofLine line') (hc : '(' ∉ c.toList) (hm : '.' ∉ m.toList)
    (hm' : '(' ∉ m.toList) :
    ∃ f g a b, t.after.top? = some f ∧ u.after.top? = some g ∧
      t.after.activations.get? f.id = some a ∧ u.after.activations.get? g.id = some b ∧
      (a.statics = b.statics ↔ '.' ∉ c.toList) ∧
      ('.' ∉ c.toList → ∀ s, s = ((fresh config resolver lines).performAll ops).state ∨
          s = ((fresh config resolver lines).performAll ops).live →
        (s.activations.get? f.id).isSome → (s.activations.get? g.id).isSome →
        s.scope? f.id .statics = s.statics.staticsOf? c ∧
          s.scope? g.id .statics = s.statics.staticsOf? c) := by
  rw [Event.ofLine_of_entry (.inl rfl) constructor] at ofLine
  rw [Event.ofLine_of_entry (.inr rfl) method] at ofLine'
  obtain ⟨f, a, hf, ha, hscope, hshown⟩ := staticScope_turnsAlong _ _ _ _ ht ofLine
  obtain ⟨g, b, hg, hb, hscope', hshown'⟩ := staticScope_turnsAlong _ _ _ _ hu ofLine'
  rw [Signature.className_method args hc hm hm'] at hscope' hshown'
  have hsound := ((wellFormed_fresh config resolver lines).run ops).live.framed.statics
  refine ⟨f, g, a, b, hf, hg, ha, hb, ?_, fun hdot s hs hfs hgs => ⟨?_, hshown' s hs hgs⟩⟩
  · rw [← Signature.className_eq_self_iff hc]
    constructor
    · intro heq
      rw [heq] at hscope
      exact hsound.apart hscope hscope'
    · intro heq
      rw [heq, hscope'] at hscope
      exact (Option.some.inj hscope).symm
  · rw [hshown s hs hfs, (Signature.className_eq_self_iff hc).2 hdot]

/-- A method of the class `c` declares and assigns a static variable of `c`, and calls its
constructor. -/
def constructorLog (c : String) : List String :=
  ["62.0 APEX_CODE,FINEST",
    "0|METHOD_ENTRY|[1]|01p|" ++ c ++ ".m()",
    "0|VARIABLE_SCOPE_BEGIN|[2]|" ++ c ++ ".x|Integer|false|true",
    "0|VARIABLE_ASSIGNMENT|[2]|" ++ c ++ ".x|5",
    "0|CONSTRUCTOR_ENTRY|[3]|01p|<init>()|" ++ c,
    "0|STATEMENT_EXECUTE|[4]"]

set_option maxRecDepth 100000 in
/-- The constructor of an outer class shares the scope of its method. -/
theorem sharesScope_constructorLog :
    let run := (fresh {} (fun _ => none) (constructorLog "Helper")).turnsAlong [.advance, .advance]
    let line := "0|CONSTRUCTOR_ENTRY|[3]|01p|<init>()|Helper"
    let line' := "0|METHOD_ENTRY|[1]|01p|Helper.m()"
    ∃ t ∈ run, ∃ u ∈ run,
      EntryLine "CONSTRUCTOR_ENTRY" line "Helper" ∧ t.event = Event.ofLine line ∧
        EntryLine "METHOD_ENTRY" line' ("Helper" ++ "." ++ "m" ++ "(" ++ ")") ∧
        u.event = Event.ofLine line' ∧ '(' ∉ "Helper".toList ∧ '.' ∉ "m".toList ∧
        '(' ∉ "m".toList ∧ '.' ∉ "Helper".toList ∧
        ∃ f g a b, t.after.top? = some f ∧ u.after.top? = some g ∧
          t.after.activations.get? f.id = some a ∧ u.after.activations.get? g.id = some b ∧
          a.statics = b.statics := by
  intro run line line'
  have hevents : run.map Turn.event =
      [.logStart, .call "Helper.m()", .declaration ⟨"Helper.x", "Integer", true⟩,
        .assignment ⟨"Helper.x", "5", none⟩, .call "Helper", .statement 4] := by
    decide +kernel
  have hentry : EntryLine "CONSTRUCTOR_ENTRY" line "Helper" :=
    ⟨"0", ["[3]", "01p", "<init>()", "Helper"], by decide +kernel, rfl⟩
  have hentry' : EntryLine "METHOD_ENTRY" line' ("Helper" ++ "." ++ "m" ++ "(" ++ ")") :=
    ⟨"0", ["[1]", "01p", "Helper.m()"], by decide +kernel, by decide +kernel⟩
  have found : ∀ e ∈ run.map Turn.event, ∃ t ∈ run, t.event = e := fun e he => List.mem_map.1 he
  obtain ⟨t, ht, hcall⟩ := found (.call "Helper") (by rw [hevents]; decide)
  obtain ⟨u, hu, hcall'⟩ := found (.call "Helper.m()") (by rw [hevents]; decide)
  have hline : t.event = Event.ofLine line :=
    hcall.trans (Event.ofLine_of_entry (.inl rfl) hentry).symm
  have hline' : u.event = Event.ofLine line' :=
    hcall'.trans (Event.ofLine_of_entry (.inr rfl) hentry').symm
  obtain ⟨f, g, a, b, hf, hg, ha, hb, hshare, -⟩ := sharesScope_iff {} (fun _ => none)
    (constructorLog "Helper") [.advance, .advance] ht hu hentry hline hentry' hline'
    (by decide) (by decide) (by decide)
  exact ⟨t, ht, u, hu, hentry, hline, hentry', hline', by decide, by decide, by decide, by decide,
    f, g, a, b, hf, hg, ha, hb, hshare.2 (by decide)⟩

set_option maxRecDepth 100000 in
/-- The constructor of an inner class does not see the static variable that the method of the class
has declared and assigned. -/
theorem not_sharesScope_constructorLog :
    let s := ((fresh {} (fun _ => none) (constructorLog "Helper.Inner")).performAll
      [.advance, .advance]).state
    EntryLine "CONSTRUCTOR_ENTRY" "0|CONSTRUCTOR_ENTRY|[3]|01p|<init>()|Helper.Inner"
        "Helper.Inner" ∧
      EntryLine "METHOD_ENTRY" "0|METHOD_ENTRY|[1]|01p|Helper.Inner.m()"
        ("Helper.Inner" ++ "." ++ "m" ++ "(" ++ ")") ∧
      '(' ∉ "Helper.Inner".toList ∧ '.' ∉ "m".toList ∧ '(' ∉ "m".toList ∧
      s.stack.map (fun frame => (frame.id, frame.name)) =
        [(1002, "Helper.Inner"), (1001, "Helper.Inner.m()")] ∧
      (s.activations.get? 1002).map Activation.statics ≠
        (s.activations.get? 1001).map Activation.statics ∧
      (s.scope? 1002 .statics).map Table.keys = some [] ∧
      (s.scope? 1001 .statics).map Table.keys = some ["x"] := by
  intro s
  have hframes : s.stack.map (fun frame => (frame.id, frame.name)) =
        [(1002, "Helper.Inner"), (1001, "Helper.Inner.m()")] ∧
      (s.activations.get? 1002).map Activation.statics ≠
        (s.activations.get? 1001).map Activation.statics ∧
      (s.scope? 1002 .statics).map Table.keys = some [] ∧
      (s.scope? 1001 .statics).map Table.keys = some ["x"] := by
    decide +kernel
  exact ⟨⟨"0", ["[3]", "01p", "<init>()", "Helper.Inner"], by decide +kernel, rfl⟩,
    ⟨"0", ["[1]", "01p", "Helper.Inner.m()"], by decide +kernel, by decide +kernel⟩, by decide,
    by decide, by decide, hframes⟩

end Replay

end Retrace
