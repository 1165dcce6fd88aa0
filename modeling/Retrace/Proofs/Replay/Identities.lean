import Retrace.Proofs.Replay.ClassScopes
import Retrace.Proofs.Replay.FrameTable
import Retrace.Proofs.Tables

/-!
# Identities

A user refers to what a replay has shown him by names, keys and numbers. These keep their meaning:
whatever the log goes on to tell, a known object keeps the binding that stands for it, a class its
scope, a local variable its binding, and a number what it was given for. Frames are numbered one
after the other, and the number of a frame that is gone is not given again.

* `State.Endures`: what the user has been given stays.
* `Replay.endures_handle`: events leave it alone.
* `Turn.frame?`, `Replay.frames_course`: the numbers of the frames.
* **`Replay.identities_performAll`**: identities along every run.
-/

namespace Retrace

theorem Handles.lt_next_of_get? {α : Type} {t : Handles α} {h : Nat} {a : α}
    (ha : t.get? h = some a) : h < t.next := by
  refine t.lt_next h (Classical.byContradiction fun hn => ?_)
  rw [(Handles.get?_eq_none_iff t h).2 hn] at ha
  cases ha

namespace State

variable {s s' s'' : State}

/-! ## What stays -/

/-- **What the user has been given stays.** Classes keep their scopes, and calls that are gone do
not come back. -/
structure Endures (s s' : State) : Prop extends s.Ages s' where
  /-- Objects become known one after the other, and keep the bindings that stand for them. -/
  references : s.references.entries <+: s'.references.entries
  /-- The local variables of a call keep their bindings. -/
  locals : ∀ {id a a' name b}, s.activations.get? id = some a →
    s'.activations.get? id = some a' → a.locals.get? name = some b → a'.locals.get? name = some b
  /-- A binding keeps the handle that it has, and a handle what it expands to. -/
  handle : ∀ {b h}, (s.store.get b).handle = some h → (s'.store.get b).handle = some h
  target : ∀ {h t}, s.handles.get? h = some t → s'.handles.get? h = some t

namespace Endures

theorem refl (s : State) : s.Endures s where
  toAges := .refl s
  references := List.prefix_refl _
  locals ha ha' hb := by
    cases ha.symm.trans ha'
    exact hb
  handle := id
  target := id

theorem trans (h : s.Endures s') (h' : s'.Endures s'') : s.Endures s'' where
  toAges := h.toAges.trans h'.toAges
  references := h.references.trans h'.references
  locals ha ha'' hb := by
    have hlt := Nat.lt_of_lt_of_le (Handles.lt_next_of_get? ha) h.next
    obtain ⟨a', ha', -⟩ := h'.scope hlt ha''
    exact h'.locals ha' ha'' (h.locals ha ha' hb)
  handle hb := h'.handle (h.handle hb)
  target ht := h'.target (h.target ht)

/-- Where calls and references stay, handles are all there is to see. -/
theorem of_calls (statics : s.statics.Extends s'.statics)
    (activations : s'.activations = s.activations)
    (references : s.references.entries <+: s'.references.entries)
    (handle : ∀ {b h}, (s.store.get b).handle = some h → (s'.store.get b).handle = some h)
    (target : ∀ {h t}, s.handles.get? h = some t → s'.handles.get? h = some t) :
    s.Endures s' where
  toAges := .of_activations statics activations
  references := references
  locals ha ha' hb := by
    rw [activations] at ha'
    cases ha.symm.trans ha'
    exact hb
  handle := handle
  target := target

theorem gone (h : s.Endures s') {id : Nat} (hid : id < s.activations.next)
    (hgone : s.activations.get? id = none) : s'.activations.get? id = none := by
  refine Option.eq_none_iff_forall_ne_some.2 fun a ha => ?_
  obtain ⟨b, hb, -⟩ := h.scope hid ha
  rw [hgone] at hb
  cases hb

theorem expand?_of_gone (h : s.Endures s') {id : Nat} (hid : id < s.activations.next)
    (hgone : s.activations.get? id = none) {handle : Nat} {kind : ScopeKind}
    (ht : s.handles.get? handle = some (.scope id kind)) : s'.expand? handle = none := by
  rw [expand?, h.target ht]
  show (s'.scope? id kind).map _ = none
  rw [scope?, h.gone hid hgone]
  rfl

end Endures

/-! ## Edits -/

theorem handle_ensureHandle (b : BindingId) {c : BindingId} {h : Nat}
    (hc : (s.store.get c).handle = some h) : ((s.ensureHandle b).store.get c).handle = some h := by
  unfold ensureHandle
  split
  · exact hc
  · next hnone =>
    have hne : c ≠ b := by
      rintro rfl
      rw [hnone] at hc
      cases hc
    exact (congrArg Binding.handle (Store.get_modify_of_ne _ hne)).trans hc

theorem target_ensureHandle (b : BindingId) {h : Nat} {t : Target}
    (ht : s.handles.get? h = some t) : (s.ensureHandle b).handles.get? h = some t := by
  unfold ensureHandle
  split
  · exact ht
  · exact Handles.get?_create_of_some ht _

section Edit

variable {g : Bool}

theorem Edit.references_prefix (e : s.Edit g s') :
    s.references.entries <+: s'.references.entries := by
  cases e with
  | number => simp only [references_ensureHandle, List.prefix_rfl]
  | entry key =>
    unfold referenceEntry
    cases hk : s.references.get? key with
    | some entry => exact List.prefix_refl _
    | none =>
      show _ <+: (s.references.insert key _).entries
      rw [Table.entries_insert_of_none hk]
      exact List.prefix_append ..
  | global =>
    unfold insertGlobal modifyTop
    split <;> exact List.prefix_refl _
  | _ => exact List.prefix_refl _

theorem Edit.handle_of_some (e : s.Edit g s') {c : BindingId} {h : Nat}
    (hc : (s.store.get c).handle = some h) : (s'.store.get c).handle = some h := by
  cases e with
  | rewrite handle => exact (Store.get_modify_field _ Binding.handle handle c).trans hc
  | number => exact handle_ensureHandle _ hc
  | child has name => exact (s.store.handle_childOrCreate name c).trans hc
  | entry key =>
    unfold referenceEntry
    split
    · exact hc
    · have hcreated := (s.store.handle_create "" "" "" c).trans hc
      exact (Store.get_modify_field (fun a => { a with reference := some key }) Binding.handle
        (fun _ => rfl) c).trans hcreated
  | create name type value => exact (Store.handle_create ..).trans hc
  | global =>
    rw [store_insertGlobal]
    exact hc
  | _ => exact hc

theorem Edit.target_of_some (e : s.Edit g s') {h : Nat} {t : Target}
    (ht : s.handles.get? h = some t) : s'.handles.get? h = some t := by
  cases e with
  | number => exact target_ensureHandle _ ht
  | entry key =>
    unfold referenceEntry
    split <;> exact ht
  | global =>
    unfold insertGlobal modifyTop
    split <;> exact ht
  | _ => exact ht

end Edit

/-- **Edits of assignments leave alone what the user has been given.** -/
theorem Edit.endures (e : s.Edit false s') : s.Endures s' :=
  .of_calls (e.sameFrames.statics ▸ .refl _) e.activations e.references_prefix e.handle_of_some
    e.target_of_some

theorem Edits.endures (h : s.Edits false s') : s.Endures s' :=
  h.invariant (fun e h => h.trans e.endures) (.refl s)

/-! ## Calls and declarations -/

theorem endures_pushFrame {statics : Statics} (ext : s.statics.Extends statics)
    (signature className : String) (scope : ScopeId) (source : Locator) (line : Nat) :
    s.Endures (({ s with statics } : State).pushFrame signature className scope source line) where
  toAges := .pushFrame ext signature className scope source line
  references := List.prefix_refl _
  locals {_ a a' _ _} ha ha' hb := by
    have hkept := Handles.get?_create_of_some ha
      { depth := s.stack.length, signature, className, statics := scope }
    cases hkept.symm.trans ha'
    exact hb
  handle := id
  target := id

theorem endures_popFrame (s : State) : s.Endures s.popFrame where
  toAges := .popFrame s
  references := by
    unfold popFrame
    split <;> exact List.prefix_refl _
  locals {_ a a' _ _} ha ha' hb := by
    unfold popFrame at ha'
    split at ha'
    · cases ha.symm.trans ha'
      exact hb
    · rw [Handles.get?_remove] at ha'
      split at ha'
      · cases ha'
      · cases ha.symm.trans ha'
        exact hb
  handle {b h} hb := by
    unfold popFrame
    split <;> exact hb
  target {h t} ht := by
    unfold popFrame
    split <;> exact ht

theorem endures_setLine (s : State) (line : Nat) : s.Endures (s.setLine line) := by
  unfold setLine
  split
  · exact .refl s
  · exact .of_calls (.refl _) rfl (List.prefix_refl _) id id

theorem locals_declare (s : State) (d : Declaration) {id : Nat} {a a' : Activation} {name : String}
    {b : BindingId} (ha : s.activations.get? id = some a)
    (ha' : (s.declare d).activations.get? id = some a') (hb : a.locals.get? name = some b) :
    a'.locals.get? name = some b := by
  have same : s.activations.get? id = some a' → a'.locals.get? name = some b := by
    intro h
    cases ha.symm.trans h
    exact hb
  unfold declare at ha'
  split at ha'
  · exact same ha'
  · next top htop =>
    split at ha'
    · exact same ha'
    · split at ha'
      · exact same ha'
      · next hnew =>
        obtain ⟨frame, hframe, htop⟩ := Option.bind_eq_some_iff.1 htop
        dsimp only [modifyTop] at ha'
        rw [show ({ s with store := (s.store.declare d.name d.typeName).2 } : State).top? =
          some frame from hframe] at ha'
        dsimp only at ha'
        rw [Handles.get?_update, ha, Option.map_some] at ha'
        have ha'' := Option.some.inj ha'
        split at ha''
        · next hid =>
          -- the variable that is new is another one
          have hname : name ≠ d.name := by
            rintro rfl
            rw [hid, htop] at ha
            cases ha
            exact hnew (by rw [Table.contains, hb]; rfl)
          rw [← ha'']
          exact (Table.get?_insert ..).trans ((if_neg hname).trans hb)
        · exact ha'' ▸ hb

theorem endures_declare (s : State) (d : Declaration) : s.Endures (s.declare d) := by
  have hd := s.declares_declare d
  refine ⟨.declare s d, ?_, s.locals_declare d, ?_, ?_⟩
  · generalize s.declare d = s' at hd
    cases hd <;> exact List.prefix_refl _
  · intro b h hb
    generalize s.declare d = s' at hd
    cases hd with
    | nothing => exact hb
    | _ => exact (s.store.handle_create _ _ _ b).trans hb
  · intro h t ht
    generalize s.declare d = s' at hd
    cases hd <;> exact ht

end State

/-- The number of the frame that the turn pushes. -/
def Turn.frame? (t : Turn) : Option Nat :=
  match t.event with
  | .logStart | .call _ => t.after.top?.map (·.id)
  | _ => none

namespace Replay

/-- **Events leave alone what the user has been given.** -/
theorem endures_handle {r : Replay} (e : Event) (h : r.state.Sound) :
    r.state.Endures (r.handle e).state := by
  cases e with
  | logStart => exact State.endures_pushFrame r.state.statics.extends_createDetached _ _ _ _ _
  | call signature => exact State.endures_pushFrame (r.state.statics.extends_register _) _ _ _ _ _
  | finish signature =>
    simp only [handle, handleFinish]
    split
    · exact .refl _
    · split
      · exact r.state.endures_popFrame
      · exact .refl _
  | statement line => exact r.state.endures_setLine _
  | debug line text => exact .refl _
  | declaration d => exact r.state.endures_declare d
  | assignment a => exact (State.edits_assign h a).endures
  | other => exact .refl _

theorem endures_idle {e : Option Event} {s s' : State} (h : s.Idle e s') : s.Endures s' := by
  cases h with
  | scope frame kind =>
    exact .of_calls (.refl _) rfl (List.prefix_refl _) id fun ht =>
      Handles.get?_create_of_some ht _
  | pop => exact s.endures_popFrame

theorem endures_performAll {r : Replay} (h : r.live.Sound) (ops : List Operation) :
    r.live.Endures (r.performAll ops).live :=
  ((r.course_turnsAlong ops).grows State.Endures.refl State.Endures.trans endures_handle
    endures_idle h).1

/-! ## Numbers of frames -/

theorem next_idles {e : Option Event} {s s' : State} (h : s.Idles e s') :
    s'.activations.next = s.activations.next := by
  induction h with
  | refl => rfl
  | tail _ idle ih =>
    rw [← ih]
    cases idle with
    | scope => rfl
    | pop => exact State.next_popFrame _

theorem frame?_of_handled {t : Turn} (h : t.Handled) (sound : t.before.Sound) :
    (t.frame? = none ∧ t.after.activations.next = t.before.activations.next) ∨
      (t.frame? = some t.before.activations.next ∧
        t.after.activations.next = t.before.activations.next + 1) := by
  obtain ⟨r, hr, hr'⟩ := h
  rw [← hr] at sound ⊢
  rw [Turn.frame?, ← hr']
  cases t.event with
  | logStart => exact .inr ⟨rfl, rfl⟩
  | call signature => exact .inr ⟨rfl, rfl⟩
  | finish signature =>
    refine .inl ⟨rfl, ?_⟩
    simp only [handle, handleFinish]
    split
    · rfl
    · split
      · exact r.state.next_popFrame
      · rfl
  | statement line => exact .inl ⟨rfl, r.state.next_setLine _⟩
  | debug line text => exact .inl ⟨rfl, rfl⟩
  | declaration d => exact .inl ⟨rfl, (r.state.declares_declare d).activations.1⟩
  | assignment a =>
    refine .inl ⟨rfl, ?_⟩
    show (r.state.assign a).activations.next = _
    rw [(State.edits_assign (g := false) sound a).activations]
  | other => exact .inl ⟨rfl, rfl⟩

/-- **Frames are numbered one after the other** along a course. -/
theorem frames_course {e e' : Option Event} {s s' : State} {ts : List Turn}
    (c : Course e s ts e' s') (sound : s.Sound) :
    ∃ count, s'.activations.next = s.activations.next + count ∧
      ts.filterMap Turn.frame? = List.range' s.activations.next count := by
  induction c with
  | nil h => exact ⟨0, next_idles h, rfl⟩
  | @cons _ _ _ _ t _ h handled _ ih =>
    have hbefore : t.before.Sound := State.sound_idles h sound
    obtain ⟨count, hnext, hframes⟩ := ih (handled.sound hbefore)
    rcases frame?_of_handled handled hbefore with ⟨hframe, hsame⟩ | ⟨hframe, hsucc⟩
    · rw [hsame, next_idles h] at hnext hframes
      exact ⟨count, hnext, by rw [List.filterMap_cons_none hframe, hframes]⟩
    · rw [hsucc, next_idles h] at hnext hframes
      rw [next_idles h] at hframe
      refine ⟨count + 1, by omega, ?_⟩
      rw [List.filterMap_cons_some hframe, hframes, List.range'_succ]

/-! ## Handles of scopes -/

theorem target_scopes {r : Replay} {frame h : Nat} {kind : ScopeKind}
    (hgiven : (kind, h) ∈ (r.scopes frame).1) :
    (r.scopes frame).2.state.handles.get? h = some (.scope frame kind) := by
  have created : ∀ (t : Handles Target) kind,
      (t.create (.scope frame kind)).get? t.next = some (.scope frame kind) := fun t kind => by
    rw [Handles.get?_create, if_pos rfl]
  unfold scopes at hgiven ⊢
  split at hgiven
  · cases hgiven
  · next hlive =>
    rw [if_neg hlive]
    let t := r.state.handles
    change (kind, h) ∈ [(ScopeKind.locals, t.next), (.statics, t.next + 1),
      (.globals, t.next + 1 + 1)] at hgiven
    show (((t.create (.scope frame .locals)).create (.scope frame .statics)).create
      (.scope frame .globals)).get? h = _
    simp only [List.mem_cons, List.not_mem_nil, or_false, Prod.mk.injEq] at hgiven
    rcases hgiven with ⟨rfl, rfl⟩ | ⟨rfl, rfl⟩ | ⟨rfl, rfl⟩
    · exact Handles.get?_create_of_some (Handles.get?_create_of_some (created t _) _) _
    · exact Handles.get?_create_of_some (created (t.create _) _) _
    · exact created ((t.create _).create _) _

/-- **Identities are stable.** Let a user go on with a run in any way. What he has been given of the
live state stays: the reference table only gets entries at its end, classes keep their scopes, live
frames the bindings of their local variables, bindings their handles, and handles what they expand
to; so do the handles of variables, and those of scopes that are given while no overlay is shown.
The frames that were pushed have the numbers from the first one on, and once one of them is gone it
does not come back, and the handles of its scopes expand to nothing. All this takes for granted that
numbers do not run out: `Handles` has no largest one. -/
theorem identities_performAll (config : Config) (resolver : Resolver) (lines : List String)
    (before after : List Operation) :
    let r := fresh config resolver lines
    let q := r.performAll before
    let q' := q.performAll after
    q.live.Endures q'.live ∧
    (∀ key b, q.live.references.get? key = some b → q'.live.references.get? key = some b) ∧
    (∀ b h, (q.live.store.get b).handle = some h →
      q'.live.handles.get? h = some (.binding b)) ∧
    (∀ frame kind h, q.saved = none → (kind, h) ∈ (q.scopes frame).1 →
      ((q.perform (.scopes frame)).performAll after).live.handles.get? h =
        some (.scope frame kind)) ∧
    (∃ count, q.live.activations.next = firstHandle + count ∧
      (r.turnsAlong before).filterMap Turn.frame? = List.range' firstHandle count) ∧
    ∀ frame ∈ (r.turnsAlong before).filterMap Turn.frame?, q.live.activations.get? frame = none →
      q'.live.activations.get? frame = none ∧
        ∀ h kind, q.live.handles.get? h = some (.scope frame kind) → q'.live.expand? h = none := by
  intro r q q'
  have hwf : q.WellFormed := (wellFormed_fresh config resolver lines).run before
  have hends : q.live.Endures q'.live := endures_performAll hwf.live.sound after
  have hframes := frames_course (r.course_turnsAlong before) State.sound_empty
  refine ⟨hends, fun key b => Table.get?_of_append hends.references, fun b h hb => ?_,
    fun frame kind h hbare hgiven => ?_, hframes, fun frame hframe hgone => ?_⟩
  · exact hends.target (hwf.live.numbered.ofHandle hb)
  · have hlive : (q.perform (.scopes frame)).live = (q.scopes frame).2.state := by
      obtain ⟨handles, heq, -⟩ := q.scopes_snd frame
      rw [perform, heq, live]
      show q.saved.getD _ = _
      rw [hbare, Option.getD_none]
    have hsound : (q.perform (.scopes frame)).live.Sound :=
      (hwf.perform (.scopes frame)).live.sound
    refine (endures_performAll hsound after).target ?_
    rw [hlive]
    exact target_scopes hgiven
  · have hlt : frame < q.live.activations.next := by
      obtain ⟨count, hnext, hrange⟩ := hframes
      rw [hrange, List.mem_range'_1] at hframe
      rw [hnext]
      exact hframe.2
    exact ⟨hends.gone hlt hgone, fun h kind ht => hends.expand?_of_gone hlt hgone ht⟩

/-- A method is called twice. In the first call its variable is declared once more. -/
def reenteredLog : List String :=
  ["62.0 APEX_CODE,FINEST",
    "0|METHOD_ENTRY|[1]|01p|A.f()",
    "0|VARIABLE_SCOPE_BEGIN|[1]|a|A|true|false",
    "0|VARIABLE_ASSIGNMENT|[2]|a|\x7b\"y\":1\x7d|0x1",
    "0|STATEMENT_EXECUTE|[2]",
    "0|VARIABLE_SCOPE_BEGIN|[2]|a|A|true|false",
    "0|STATEMENT_EXECUTE|[3]",
    "0|METHOD_EXIT|[3]|01p|A.f()",
    "0|METHOD_ENTRY|[1]|01p|A.f()",
    "0|STATEMENT_EXECUTE|[2]"]

set_option maxRecDepth 100000 in
/-- The handles of the variable and of the scope of the first call are good for the whole run; the
latter expands to nothing in the second call. -/
theorem identities_reenteredLog :
    let r := fresh {} (fun _ => none) reenteredLog
    let q := r.performAll [.advance, .advance]
    let q' := r.performAll [.advance, .advance, .scopes 1001, .advance, .advance]
    (q.live.references.get? "0x1" = some ⟨1⟩ ∧
      (q.performAll [.advance, .advance]).live.references.get? "0x1" = some ⟨1⟩) ∧
    ((q.live.store.get ⟨0⟩).handle = some 1000 ∧
      (q.performAll [.advance, .advance]).live.handles.get? 1000 = some (.binding ⟨0⟩)) ∧
    (q.saved = none ∧ (.locals, 1001) ∈ (q.scopes 1001).1 ∧
      ((q.perform (.scopes 1001)).performAll [.advance, .advance]).live.handles.get? 1001 =
        some (.scope 1001 .locals)) ∧
    1001 ∈ (r.turnsAlong [.advance, .advance, .scopes 1001, .advance, .advance]).filterMap
        Turn.frame? ∧
      q'.live.activations.get? 1001 = none ∧
      q'.live.handles.get? 1001 = some (.scope 1001 .locals) ∧
      (q'.performAll [.advance]).live.expand? 1001 = none := by
  intro r q q'
  obtain ⟨href, hhandle, hsaved, hgiven⟩ : q.live.references.get? "0x1" = some ⟨1⟩ ∧
      (q.live.store.get ⟨0⟩).handle = some 1000 ∧ q.saved = none ∧
      (.locals, 1001) ∈ (q.scopes 1001).1 := by
    decide +kernel
  obtain ⟨hframe, hgone, htarget⟩ : 1001 ∈ (r.turnsAlong [.advance, .advance, .scopes 1001,
        .advance, .advance]).filterMap Turn.frame? ∧
      q'.live.activations.get? 1001 = none ∧
      q'.live.handles.get? 1001 = some (.scope 1001 .locals) := by
    decide +kernel
  have h := identities_performAll {} (fun _ => none) reenteredLog [.advance, .advance]
    [.advance, .advance]
  have h' := identities_performAll {} (fun _ => none) reenteredLog
    [.advance, .advance, .scopes 1001, .advance, .advance] [.advance]
  exact ⟨⟨href, h.2.1 _ _ href⟩, ⟨hhandle, h.2.2.1 _ _ hhandle⟩,
    ⟨hsaved, hgiven, h.2.2.2.1 _ _ _ hsaved hgiven⟩, hframe, hgone, htarget,
    (h'.2.2.2.2.2 _ hframe hgone).2 _ _ htarget⟩

end Replay

end Retrace
