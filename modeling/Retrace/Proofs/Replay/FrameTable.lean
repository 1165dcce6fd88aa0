import Retrace.Proofs.Replay.Runs

/-!
# The frame table

The call stack and the variables of the active calls are kept apart and go by the numbers of the
frames. They agree at all times: each frame on the stack has its variables and no others are kept,
each call knows how many calls are below it, and the calls of a class hold the scope of the class.
The frame that stands for the log is a call of no class; while it is there, it is alone.

* `Frame.IsLog`, `State.FrameTable`: the frame of the log, and the agreement.
* `State.Tabled`: the part of it that is not about numbers, `Tabled.pushFrame`, …: it is kept.
* `State.Rests`, `State.Goes`: what holds at a pause, and what holds on the way.
* `Replay.rests_consume`: going through lines leads from one to the other.
* **`Replay.frameTable_performAll`**: the frame table of every run.
-/

namespace Retrace

/-- The first number is that of the frame that stands for the log. -/
def Frame.IsLog (frame : Frame) : Prop := frame.id = firstHandle

/-- **The frame table.** Frames are counted from the bottom of the stack. -/
structure State.FrameTable (s : State) : Prop where
  /-- The numbers of the frames increase, and are those under which variables are kept. -/
  increasing : (s.stack.reverse.map Frame.id).Pairwise (· < ·)
  keys : s.activations.keys = s.stack.reverse.map Frame.id
  /-- A frame finds its variables, with its place on the stack and its name. -/
  info : ∀ {i : Nat} {frame : Frame}, s.stack.reverse[i]? = some frame →
    ∃ a, s.activations.get? frame.id = some a ∧ a.depth = i ∧ a.signature = frame.name
  /-- All frames but that of the log hold the scope of the class of their signature. -/
  ofClass : ∀ {frame : Frame} {a : Activation}, frame ∈ s.stack → ¬ frame.IsLog →
    s.activations.get? frame.id = some a →
    a.className = Signature.className a.signature ∧
      s.statics.scopeOf? a.className = some a.statics
  /-- So two of them hold the same scope exactly when they are of the same class. -/
  sameScope : ∀ {frame frame' : Frame} {a a' : Activation}, frame ∈ s.stack → frame' ∈ s.stack →
    ¬ frame.IsLog → ¬ frame'.IsLog → s.activations.get? frame.id = some a →
    s.activations.get? frame'.id = some a' → (a.statics = a'.statics ↔ a.className = a'.className)
  /-- The frame of the log is alone, with a scope of no class and without variables. -/
  ofLog : ∀ {frame : Frame} {a : Activation}, frame ∈ s.stack → frame.IsLog →
    s.activations.get? frame.id = some a →
    s.stack = [frame] ∧ s.statics.get a.statics = .empty ∧
      ∀ className, s.statics.scopeOf? className ≠ some a.statics

namespace State

variable {s s' : State}

theorem Declares.activations (h : s.Declares s') :
    s'.activations.next = s.activations.next ∧
      ∀ id, s.activations.get? id = none → s'.activations.get? id = none := by
  cases h with
  | ofCall =>
    refine ⟨rfl, fun id hid => ?_⟩
    rw [Handles.get?_update, hid, Option.map_none]
  | _ => exact ⟨rfl, fun _ h => h⟩

@[simp] theorem next_popFrame (s : State) :
    s.popFrame.activations.next = s.activations.next := by
  unfold popFrame
  split <;> rfl

@[simp] theorem next_setLine (s : State) (line : Nat) :
    (s.setLine line).activations.next = s.activations.next := by
  unfold setLine
  split <;> rfl

/-! ## What is kept -/

/-- Calls know how many calls are below, and hold the scope of their class. The log is no call of a
class, and alone. -/
structure Tabled (s : State) : Prop where
  framed : s.Framed
  depth : ∀ {frame below a}, (frame :: below) <:+ s.stack →
    s.activations.get? frame.id = some a → a.depth = below.length
  ofClass : ∀ {id a}, s.activations.get? id = some a → id ≠ firstHandle →
    a.className = Signature.className a.signature ∧
      s.statics.scopeOf? a.className = some a.statics
  ofLog : ∀ {a}, s.activations.get? firstHandle = some a →
    s.stack.length = 1 ∧ s.statics.get a.statics = .empty ∧
      ∀ className, s.statics.scopeOf? className ≠ some a.statics

/-- The frame of the log is not there. -/
def LogGone (s : State) : Prop := s.activations.get? firstHandle = none

theorem Framed.mem_keys_iff (h : s.Framed) (id : Nat) :
    id ∈ s.activations.keys ↔ ∃ frame ∈ s.stack, frame.id = id := by
  rw [h.calls, List.mem_reverse, List.mem_map]

theorem Framed.logGone_iff (h : s.Framed) : s.LogGone ↔ ∀ frame ∈ s.stack, ¬ frame.IsLog := by
  rw [LogGone, Handles.get?_eq_none_iff, h.mem_keys_iff]
  simp [Frame.IsLog]

namespace Tabled

theorem empty : State.empty.Tabled where
  framed := .empty
  depth h := by simp [State.empty] at h
  ofClass h := by cases h
  ofLog h := by cases h

theorem sameFrames (h : s.Tabled) (same : s.SameFrames s') : s'.Tabled where
  framed := h.framed.sameFrames same
  depth hsuffix ha := by
    rw [same.stack] at hsuffix
    obtain ⟨_, ha'⟩ := same.activation ha
    have hdepth := h.depth hsuffix ha'
    exact hdepth
  ofClass ha hid := by
    rw [same.statics]
    obtain ⟨_, ha'⟩ := same.activation ha
    have hclass := h.ofClass ha' hid
    exact hclass
  ofLog ha := by
    rw [same.stack, same.statics]
    obtain ⟨_, ha'⟩ := same.activation ha
    have hlog := h.ofLog ha'
    exact hlog

/-- Classes may get scopes, and static variables bindings, while the log's frame is not there. -/
theorem extend (h : s.Tabled) (gone : s.LogGone) {statics : Statics}
    (ext : s.statics.Extends statics) (sound : statics.Sound) :
    ({ s with statics } : State).Tabled where
  framed := h.framed.extend ext sound
  depth := h.depth
  ofClass ha hid := (h.ofClass ha hid).imp_right ext.scopeOf?
  ofLog ha := by
    have ha' : s.activations.get? firstHandle = _ := ha
    rw [gone] at ha'
    cases ha'

theorem update (h : s.Tabled) (gone : s.LogGone) (id : Nat) {f : Activation → Activation}
    (same : ∀ a, ∃ locals, f a = { a with locals }) :
    ({ s with activations := s.activations.update id f } : State).Tabled := by
  have old : ∀ {i a}, (s.activations.update id f).get? i = some a →
      ∃ b locals, s.activations.get? i = some b ∧ a = { b with locals } := by
    intro i a ha
    rw [Handles.get?_update, Option.map_eq_some_iff] at ha
    obtain ⟨b, hb, rfl⟩ := ha
    split
    · obtain ⟨locals, hf⟩ := same b
      exact ⟨b, locals, hb, hf⟩
    · exact ⟨b, b.locals, hb, rfl⟩
  refine ⟨h.framed.update id (fun a => ?_) fun a => ?_, fun hsuffix ha => ?_, fun ha hid => ?_,
    fun ha => ?_⟩
  · obtain ⟨_, hf⟩ := same a
    rw [hf]
  · obtain ⟨_, hf⟩ := same a
    rw [hf]
  · obtain ⟨b, _, hb, rfl⟩ := old ha
    have hdepth := h.depth hsuffix hb
    exact hdepth
  · obtain ⟨b, _, hb, rfl⟩ := old ha
    have hclass := h.ofClass hb hid
    exact hclass
  · obtain ⟨b, _, hb, rfl⟩ := old ha
    rw [gone] at hb
    cases hb

theorem pushFrame (h : s.Tabled) (gone : s.LogGone) (begun : firstHandle < s.activations.next)
    {signature className : String} {scope : ScopeId} (hi : s.statics.HasScope scope)
    (hclass : className = Signature.className signature)
    (hscope : s.statics.scopeOf? className = some scope) (source : Locator) (line : Nat) :
    (s.pushFrame signature className scope source line).Tabled := by
  refine ⟨h.framed.pushFrame hi _ _ _ _, fun {frame below a} hsuffix ha => ?_,
    fun {id a} ha hid => ?_, fun {a} ha => ?_⟩
  · change (s.activations.create _).get? frame.id = some a at ha
    rw [Handles.get?_create] at ha
    rcases List.suffix_cons_iff.1 hsuffix with heq | hsuffix
    · obtain ⟨rfl, rfl⟩ := List.cons.inj heq
      rw [if_pos rfl] at ha
      cases ha
      rfl
    · have hlt := h.framed.id_lt_next (hsuffix.subset List.mem_cons_self)
      rw [if_neg (Nat.ne_of_lt hlt)] at ha
      exact h.depth hsuffix ha
  · change (s.activations.create _).get? id = some a at ha
    rw [Handles.get?_create] at ha
    split at ha
    · cases ha
      exact ⟨hclass, hscope⟩
    · exact h.ofClass ha hid
  · change (s.activations.create _).get? firstHandle = some a at ha
    rw [Handles.get?_create, if_neg (Nat.ne_of_lt begun), gone] at ha
    cases ha

theorem pushLog (h : s.Tabled) (empty : s.stack = []) (fresh : s.activations.next = firstHandle)
    (name : String) (source : Locator) (line : Nat) :
    (({ s with statics := s.statics.createDetached.2 } : State).pushFrame name ""
      s.statics.createDetached.1 source line).Tabled := by
  have hkeys : s.activations.keys = [] := by
    rw [h.framed.calls, empty]
    rfl
  have hnone : ∀ id, s.activations.get? id = none := fun id =>
    (Handles.get?_eq_none_iff _ _).2 (by simp [hkeys])
  have hi : s.statics.createDetached.2.HasScope s.statics.createDetached.1 :=
    (s.statics.hasScope_createDetached _).2 (.inr rfl)
  have hframed := (h.framed.extend s.statics.extends_createDetached
    h.framed.statics.createDetached).pushFrame hi name "" source line
  have only : ∀ {id a}, (s.activations.create
      ⟨s.stack.length, name, "", s.statics.createDetached.1, .empty, .empty⟩).get? id = some a →
      id = firstHandle ∧
        a = ⟨s.stack.length, name, "", s.statics.createDetached.1, .empty, .empty⟩ := by
    intro id a ha
    rw [Handles.get?_create, fresh, hnone] at ha
    split at ha
    · next hid => exact ⟨hid, (Option.some.inj ha).symm⟩
    · cases ha
  refine ⟨hframed, fun {frame below a} hsuffix ha => ?_, fun {id a} ha hid => ?_,
    fun {a} ha => ?_⟩
  · obtain ⟨-, rfl⟩ := only ha
    change (frame :: below) <:+ (_ :: s.stack) at hsuffix
    rw [empty] at hsuffix ⊢
    have hlen := hsuffix.length_le
    simp at hlen
    simp [hlen]
  · exact absurd (only ha).1 hid
  · obtain ⟨-, rfl⟩ := only ha
    refine ⟨congrArg (·.length + 1) empty, ?_, fun className hc => ?_⟩
    · show s.statics.createDetached.2.get s.statics.createDetached.1 = .empty
      rw [Statics.get_createDetached]
      simp [Statics.get, Statics.createDetached]
    · exact Nat.lt_irrefl _ (h.framed.statics.has hc)

/-- Behind the end of the current call the frame of the log is not there: it is only ever the
current one. -/
theorem popFrame (h : s.Tabled) : s.popFrame.Tabled ∧ s.popFrame.LogGone := by
  have hgone : s.popFrame.LogGone := by
    rw [h.framed.popFrame.logGone_iff]
    intro frame hf hlog
    cases hs : s.stack with
    | nil => simp [State.popFrame, hs] at hf
    | cons top below =>
      have hbelow : frame ∈ below := by simpa [State.popFrame, hs] using hf
      have hstack : frame ∈ s.stack := hs ▸ List.mem_cons_of_mem _ hbelow
      obtain ⟨a, ha⟩ := h.framed.exists_activation hstack
      rw [hlog] at ha
      have halone := (h.ofLog ha).1
      rw [hs, List.length_cons] at halone
      have hpos := List.length_pos_of_mem hbelow
      omega
  refine ⟨?_, hgone⟩
  have hframed := h.framed.popFrame
  unfold State.popFrame at hframed hgone ⊢
  split
  · exact h
  · next top below hs =>
    simp only [hs] at hframed hgone
    have kept : ∀ {id a}, (s.activations.remove top.id).get? id = some a →
        s.activations.get? id = some a := by
      intro id a ha
      rw [Handles.get?_remove] at ha
      split at ha
      · cases ha
      · exact ha
    refine ⟨hframed, fun {frame below' a} hsuffix ha => ?_, fun ha hid => h.ofClass (kept ha) hid,
      fun ha => ?_⟩
    · refine h.depth ?_ (kept ha)
      rw [hs]
      exact hsuffix.trans (List.suffix_cons ..)
    · have ha' := hgone
      rw [LogGone] at ha'
      rw [ha'] at ha
      cases ha

theorem setLine (h : s.Tabled) (line : Nat) : (s.setLine line).Tabled := by
  have hframed := h.framed.setLine line
  unfold State.setLine at hframed ⊢
  split
  · exact h
  · next top below hs =>
    simp only [hs] at hframed
    refine ⟨hframed, fun {frame below' a} hsuffix ha => ?_, h.ofClass, fun ha => ?_⟩
    · rcases List.suffix_cons_iff.1 hsuffix with heq | hsuffix
      · obtain ⟨rfl, rfl⟩ := List.cons.inj heq
        have htop : (top :: below') <:+ s.stack := hs ▸ List.suffix_refl _
        exact h.depth htop ha
      · refine h.depth ?_ ha
        rw [hs]
        exact hsuffix.trans (List.suffix_cons ..)
    · have hlog := h.ofLog ha
      rw [hs] at hlog
      exact hlog

theorem declare (h : s.Tabled) (gone : s.LogGone) (d : Declaration) : (s.declare d).Tabled := by
  have hd := s.declares_declare d
  generalize s.declare d = s' at hd
  have created : ∀ store, ({ s with store } : State).Tabled := fun _ =>
    h.sameFrames (.of_eq rfl rfl rfl)
  cases hd with
  | nothing => exact h
  | @ofClass statics ext sound scope name type =>
    have h' := created (s.store.declare name type).2
    exact h'.extend (by exact gone) (ext.trans (Statics.extends_insert ..))
      ((sound h.framed.statics).insert ..)
  | @ofCall frame _ name type =>
    have h' := created (s.store.declare name type).2
    exact h'.update (by exact gone) frame.id fun a => ⟨_, rfl⟩

theorem frameTable (h : s.Tabled) : s.FrameTable where
  increasing := by
    rw [List.map_reverse, List.pairwise_reverse]
    exact h.framed.falling
  keys := h.framed.calls.trans List.map_reverse.symm
  info {i frame} hi := by
    have hf : frame ∈ s.stack := List.mem_reverse.1 (List.mem_of_getElem? hi)
    obtain ⟨a, ha⟩ := h.framed.exists_activation hf
    refine ⟨a, ha, ?_, h.framed.signature hf ha⟩
    -- what stands above the frame, reversed, comes behind it
    obtain ⟨hlt, hget⟩ := List.getElem?_eq_some_iff.1 hi
    have hsplit := List.take_append_drop i s.stack.reverse
    rw [List.drop_eq_getElem_cons hlt, hget] at hsplit
    have hsuffix : (frame :: (s.stack.reverse.take i).reverse) <:+ s.stack := by
      refine ⟨(s.stack.reverse.drop (i + 1)).reverse, ?_⟩
      have := congrArg List.reverse hsplit
      simpa using this
    rw [h.depth hsuffix ha, List.length_reverse, List.length_take]
    omega
  ofClass _ hlog ha := h.ofClass ha hlog
  sameScope {frame frame' a a'} _ _ hlog hlog' ha ha' := by
    have hc := (h.ofClass ha hlog).2
    have hc' := (h.ofClass ha' hlog').2
    constructor
    · intro heq
      exact h.framed.statics.apart (heq ▸ hc) hc'
    · intro heq
      rw [heq, hc'] at hc
      exact (Option.some.inj hc).symm
  ofLog {frame a} hf hlog ha := by
    obtain ⟨halone, hscope⟩ := h.ofLog (hlog ▸ ha)
    obtain ⟨top, hs⟩ := List.length_eq_one_iff.1 halone
    rw [hs, List.mem_singleton] at hf
    exact ⟨hf ▸ hs, hscope⟩

end Tabled

/-! ## Pauses -/

/-- What holds of the live state behind an event: before the log begins no number was handed out,
and the frame of the log is there at most behind its beginning. -/
structure Rests (e : Option Event) (s : State) : Prop where
  tabled : s.Tabled
  fresh : e = none → s.stack = [] ∧ s.activations.next = firstHandle
  begun : e ≠ none → firstHandle < s.activations.next
  log : ∀ frame ∈ s.stack, frame.IsLog ↔ e = some .logStart

/-- What holds on the way: the frame of the log is not there. -/
structure Goes (e : Option Event) (s : State) : Prop where
  rests : s.Rests e
  gone : s.LogGone

namespace Rests

variable {e : Option Event}

theorem sameFrames (h : s.Rests e) (same : s.SameFrames s')
    (next : s'.activations.next = s.activations.next) : s'.Rests e where
  tabled := h.tabled.sameFrames same
  fresh he := by
    rw [same.stack, next]
    exact h.fresh he
  begun he := by
    rw [next]
    exact h.begun he
  log := by
    rw [same.stack]
    exact h.log

theorem goes (h : s.Rests e) : (if e = some .logStart then s.popFrame else s).Goes e := by
  split
  · next he =>
    obtain ⟨htabled, hgone⟩ := h.tabled.popFrame
    have hne : e ≠ none := by simp [he]
    have hempty : ∀ frame ∈ s.popFrame.stack, ¬ frame.IsLog :=
      htabled.framed.logGone_iff.1 hgone
    refine ⟨⟨htabled, fun h => absurd h hne, fun _ => s.next_popFrame ▸ h.begun hne,
      fun frame hf => ?_⟩, hgone⟩
    -- all frames were the log's
    have hf' : frame ∈ s.stack := by
      unfold popFrame at hf
      split at hf
      · exact hf
      · next hs => exact hs ▸ List.mem_cons_of_mem _ hf
    exact h.log frame hf'
  · next he =>
    refine ⟨h, h.tabled.framed.logGone_iff.2 fun frame hf hlog => he ?_⟩
    exact (h.log frame hf).1 hlog

end Rests

theorem Goes.of_tabled {e : Event} (h : s.Tabled) (gone : s.LogGone)
    (begun : firstHandle < s.activations.next) (he : e ≠ .logStart) : s.Goes (some e) where
  rests :=
    { tabled := h
      fresh := fun h => by cases h
      begun := fun _ => begun
      log := fun frame hf => by
        have hlog := h.framed.logGone_iff.1 gone frame hf
        simp [hlog, he] }
  gone := gone

end State

theorem Event.ofLine_ne_logStart (line : String) : Event.ofLine line ≠ .logStart := by
  unfold Event.ofLine Event.ofFields?
  repeat' split
  all_goals simp [Option.getD_eq_iff]

namespace Replay

/-! ## Going through lines -/

theorem goes_handle {r : Replay} {e : Option Event} (h : r.state.Goes e) (begun : e ≠ none)
    (sound : r.state.Sound) {e' : Event} (he' : e' ≠ .logStart) :
    (r.handle e').state.Goes (some e') := by
  obtain ⟨⟨htabled, -, hbegun, -⟩, hgone⟩ := h
  have hlt := hbegun begun
  cases e' with
  | logStart => exact absurd rfl he'
  | call signature =>
    have hs := htabled.extend hgone (r.state.statics.extends_register (Signature.className signature))
      (htabled.framed.statics.register _)
    refine .of_tabled (hs.pushFrame hgone hlt (htabled.framed.statics.hasScope_register _) rfl ?_
      _ _) ?_ (Nat.lt_succ_of_lt hlt) he'
    · show (r.state.statics.register _).2.scopeOf? _ = _
      rw [Statics.scopeOf?_register, if_pos rfl]
    · show (r.state.activations.create _).get? firstHandle = none
      rw [Handles.get?_create, if_neg (Nat.ne_of_lt hlt), hgone]
  | finish signature =>
    simp only [handle, handleFinish]
    split
    · exact .of_tabled htabled hgone hlt he'
    · split
      · obtain ⟨htabled', hgone'⟩ := htabled.popFrame
        refine .of_tabled htabled' hgone' ?_ he'
        show firstHandle < r.state.popFrame.activations.next
        rwa [State.next_popFrame]
      · exact .of_tabled htabled hgone hlt he'
  | statement line =>
    refine .of_tabled (htabled.setLine _) ?_ ?_ he'
    · show (r.state.setLine _).LogGone
      unfold State.setLine
      split <;> exact hgone
    · show firstHandle < (r.state.setLine _).activations.next
      rwa [State.next_setLine]
  | debug line text => exact .of_tabled htabled hgone hlt he'
  | declaration d =>
    obtain ⟨hnext, hnone⟩ := (r.state.declares_declare d).activations
    exact .of_tabled (htabled.declare hgone d) (hnone _ hgone) (hnext ▸ hlt) he'
  | assignment a =>
    have he := State.edits_assign (g := false) sound a
    refine .of_tabled (htabled.sameFrames he.sameFrames) ?_ ?_ he'
    · show (r.state.assign a).activations.get? firstHandle = none
      rw [he.activations]
      exact hgone
    · show firstHandle < (r.state.assign a).activations.next
      rw [he.activations]
      exact hlt
  | other => exact .of_tabled htabled hgone hlt he'

/-- A line that is not empty: behind the beginning of the log its frame is there, behind any other
line it is not. -/
theorem rests_step {r : Replay} (h : r.state.Goes r.current) (sound : r.state.Sound)
    (line : String) : (r.step line).2.state.Rests (some (r.step line).1) ∧
      (¬ (r.step line).1.pauses → (r.step line).2.state.Goes (some (r.step line).1)) := by
  have hevent : (r.step line).1 = if r.current.isNone then .logStart else Event.ofLine line :=
    r.classify_fst line
  obtain ⟨q, hq, hq'⟩ := r.handled_step line
  dsimp only at hq hq'
  rw [← hq', hevent]
  rw [← hq] at h sound
  cases hcurrent : r.current with
  | none =>
    obtain ⟨hempty, hfresh⟩ := h.rests.fresh hcurrent
    refine ⟨⟨h.rests.tabled.pushLog hempty hfresh _ _ _, (by simp), fun _ => ?_,
      fun frame hf => ?_⟩, fun hp => absurd rfl hp⟩
    · show firstHandle < q.state.activations.next + 1
      omega
    · change frame ∈ _ :: q.state.stack at hf
      rw [hempty, List.mem_singleton] at hf
      subst hf
      exact iff_of_true hfresh rfl
  | some e =>
    have hgoes := goes_handle h (by simp [hcurrent]) sound (Event.ofLine_ne_logStart line)
    exact ⟨hgoes.rests, fun _ => hgoes⟩

/-- **Going through lines** ends at a pause, or behind the last line without the log's frame. -/
theorem rests_consume {ls : List String} {r : Replay} (hls : r.lines.drop r.nextIndex = ls)
    (h : r.state.Goes r.current) (sound : r.state.Sound) :
    (consume ls r).state.Rests (consume ls r).current ∧
      ((consume ls r).position = some r.lines.length → (consume ls r).state.LogGone) := by
  induction ls generalizing r with
  | nil => exact ⟨h.rests, fun _ => h.gone⟩
  | cons line rest ih =>
    obtain ⟨hrest, hstep⟩ := drop_moveOn hls
    have hlt := lt_length_of_drop hls
    obtain ⟨hpaused, hgoing⟩ := rests_step (r := r.moveOn) h sound line
    simp only [consume]
    split
    · exact ih hrest h sound
    · split
      · refine ⟨hpaused, fun hp => ?_⟩
        rw [position_step] at hp
        have := Option.some.inj hp
        omega
      · next hp =>
        have hsound := ((r.moveOn).step_step line).sound sound
        have := ih hstep (hgoing hp) hsound
        rwa [lines_step] at this

/-! ## Runs -/

/-- The live state rests, and behind the last line the frame of the log is not there. -/
structure Rests (r : Replay) : Prop where
  live : r.live.Rests r.current
  ended : r.position = some r.lines.length → r.live.LogGone

theorem rests_fresh (config : Config) (resolver : Resolver) (lines : List String) :
    (fresh config resolver lines).Rests where
  live :=
    { tabled := .empty
      fresh := fun _ => ⟨rfl, rfl⟩
      begun := fun h => absurd rfl h
      log := fun _ hf => by cases hf }
  ended h := by cases h

theorem Rests.advance {r : Replay} (h : r.Rests) (sound : r.live.Sound) : r.advance.Rests := by
  have hgoes : r.revertOverlay.2.dropLogFrame.state.Goes r.current := by
    have := h.live.goes
    unfold dropLogFrame
    rw [current_revertOverlay]
    split
    · next hc =>
      rw [if_pos hc] at this
      show r.revertOverlay.2.state.popFrame.Goes _
      rwa [state_revertOverlay]
    · next hc =>
      rw [if_neg hc] at this
      rwa [state_revertOverlay]
  have hsound : r.revertOverlay.2.dropLogFrame.state.Sound := by
    unfold dropLogFrame
    split
    · refine State.drops_popFrame.sound ?_
      rwa [state_revertOverlay]
    · rwa [state_revertOverlay]
  rw [← current_revertOverlay, ← current_dropLogFrame] at hgoes
  obtain ⟨hrests, hended⟩ := rests_consume rfl hgoes hsound
  refine ⟨?_, fun hp => ?_⟩
  · rw [live_advance]
    exact hrests
  · rw [live_advance]
    refine hended (hp.trans ?_)
    rw [lines_advance, lines_dropLogFrame, lines_revertOverlay]

theorem rests_idles {e : Option Event} {s s' : State} (idles : s.Idles e s') (h : s.Rests e) :
    s'.Rests e ∧ (s.LogGone → s'.LogGone) := by
  induction idles with
  | refl => exact ⟨h, id⟩
  | tail _ idle ih =>
    obtain ⟨h, hgone⟩ := ih
    cases idle with
    | scope frame kind => exact ⟨h.sameFrames (.of_eq rfl rfl rfl) rfl, hgone⟩
    | pop he =>
      have hgoes := h.goes
      rw [if_pos he] at hgoes
      exact ⟨hgoes.rests, fun _ => hgoes.gone⟩

/-- **Every operation leaves a replay at rest.** -/
theorem Rests.perform {r : Replay} (h : r.Rests) (sound : r.live.Sound) (op : Operation) :
    (r.perform op).Rests := by
  cases hop : op.isAdvance with
  | true =>
    cases op with
    | advance => exact h.advance sound
    | _ => cases hop
  | false =>
    obtain ⟨idles, hcurrent⟩ := r.idles_perform hop
    obtain ⟨hlive, hgone⟩ := rests_idles idles h.live
    refine ⟨hcurrent ▸ hlive, fun hp => hgone (h.ended ?_)⟩
    rwa [r.position_perform hop, r.lines_perform] at hp

theorem rests_performAll (config : Config) (resolver : Resolver) (lines : List String)
    (ops : List Operation) : ((fresh config resolver lines).performAll ops).Rests := by
  refine (invariant_performAll (I := fun r => r.Rests ∧ r.WellFormed) ops (fun op _ h => ?_)
    ⟨rests_fresh config resolver lines, wellFormed_fresh config resolver lines⟩).1
  exact ⟨h.1.perform h.2.live.sound op, h.2.perform op⟩

/-- **The frame table.** However advances, overlays of any snapshots and looks at scopes are mixed,
in the state shown and in the live state below the call stack and the variables of the calls agree;
and the frame of the log is there at most between the beginning of the log and the next advance. -/
theorem frameTable_performAll (config : Config) (resolver : Resolver) (lines : List String)
    (ops : List Operation) :
    let r := (fresh config resolver lines).performAll ops
    r.state.FrameTable ∧ r.live.FrameTable ∧
      ∀ frame ∈ r.state.stack, frame.IsLog ↔ r.current = some .logStart := by
  intro r
  have hrests : r.Rests := rests_performAll config resolver lines ops
  have shown : r.live.SameFrames r.state := ((wellFormed_fresh config resolver lines).run ops).shown
  refine ⟨(hrests.live.tabled.sameFrames shown).frameTable, hrests.live.tabled.frameTable, ?_⟩
  rw [shown.stack]
  exact hrests.live.log

end Replay

end Retrace
