import Retrace.Proofs.Aliasing.Isolation
import Retrace.Proofs.Replay.Runs

/-!
# Calls leave their callers alone

While a call is active, the log tells of the variables of that call only. So behind the end of a
call its callers stand as they stood at its beginning: the same frames, each at its line, with the
same local variables and what these hold. Calls inside may be nested to any depth, and may be of
the very method that calls them.

* `Body`: the events between the beginning and the end of a call.
* `State.KeepsLocals`, `State.SameCalls`: calls that are left alone.
* `Replay.keepsLocals_handle`: an event leaves the callers of the current call alone.
* **`Body.leavesCallers`**: so does all that happens in a call.
* **`Replay.sameCalls_of_balanced`**: behind a call its callers are as before.
-/

namespace Retrace

/-! ## Balanced events -/

/-- The event neither begins nor ends a call, nor begins the log. -/
def Event.isPlain : Event → Bool
  | .logStart | .call _ | .finish _ => false
  | .statement _ | .debug _ _ | .declaration _ | .assignment _ | .other => true

/-- What may happen between the beginning and the end of a call with the given signature: events
about the call itself, ends of calls that are not its own, and whole calls. -/
inductive Body : String → List Event → Prop
  | nil {signature : String} : Body signature []
  | plain {signature : String} {e : Event} {es : List Event} (plain : e.isPlain)
      (rest : Body signature es) : Body signature (e :: es)
  | unmatched {signature other : String} {es : List Event}
      (unmatched : ¬ Text.startsWith other signature) (rest : Body signature es) :
      Body signature (.finish other :: es)
  | block {signature inner inner' : String} {body es : List Event} (balanced : Body inner body)
      (matched : Text.startsWith inner' inner) (rest : Body signature es) :
      Body signature (.call inner :: (body ++ .finish inner' :: es))

namespace State

variable {s s' s'' : State} {frames : List Frame}

/-! ## Calls that are left alone -/

/-- The frames have the same variables, and the local ones hold what they held. -/
structure KeepsLocals (s : State) (frames : List Frame) (s' : State) : Prop where
  activation : ∀ frame ∈ frames, s'.activations.get? frame.id = s.activations.get? frame.id
  bindings : ∀ frame ∈ frames, ∀ name b, s.slot? (.localVar frame.id name) = some b →
    s'.store.get b = s.store.get b

/-- **The calls are as they were**: the same frames, each at the same line, with the same
variables; and the local ones have the same names, types and texts, refer to the same objects, hold
the same collections and have the same handles. -/
structure SameCalls (s s' : State) : Prop where
  stack : s'.stack = s.stack
  keeps : s.KeepsLocals s.stack s'

namespace KeepsLocals

theorem of_eq (activations : s'.activations = s.activations) (store : s'.store = s.store) :
    s.KeepsLocals frames s' where
  activation frame _ := by rw [activations]
  bindings _ _ _ _ _ := by rw [store]

theorem refl (s : State) (frames : List Frame) : s.KeepsLocals frames s := .of_eq rfl rfl

theorem trans (h : s.KeepsLocals frames s') (h' : s'.KeepsLocals frames s'') :
    s.KeepsLocals frames s'' where
  activation frame hf := (h'.activation frame hf).trans (h.activation frame hf)
  bindings frame hf name b hb := by
    have hb' : s'.slot? (.localVar frame.id name) = some b := by
      rw [← hb]
      show (s'.activations.get? frame.id).bind _ = (s.activations.get? frame.id).bind _
      rw [h.activation frame hf]
    rw [h'.bindings frame hf name b hb', h.bindings frame hf name b hb]

theorem mono {frames' : List Frame} (h : s.KeepsLocals frames s')
    (subset : ∀ frame ∈ frames', frame ∈ frames) : s.KeepsLocals frames' s' where
  activation frame hf := h.activation frame (subset frame hf)
  bindings frame hf := h.bindings frame (subset frame hf)

end KeepsLocals

theorem keepsLocals_pushFrame (h : s.Framed) (signature className : String) (scope : ScopeId)
    (statics : Statics) (source : Locator) (line : Nat) :
    s.KeepsLocals s.stack
      (({ s with statics } : State).pushFrame signature className scope source line) where
  activation frame hf := by
    show (s.activations.create _).get? frame.id = _
    rw [Handles.get?_create, if_neg (Nat.ne_of_lt (h.id_lt_next hf))]
  bindings _ _ _ _ _ := rfl

section Callers

variable {top : Frame} {below : List Frame}

theorem keepsLocals_popFrame (h : s.Framed) (hs : s.stack = top :: below) :
    s.KeepsLocals below s.popFrame where
  activation frame hf := by
    have hne := h.id_ne_top hs hf
    simp only [popFrame, hs, Handles.get?_remove, if_neg hne]
  bindings _ _ _ _ _ := by simp only [popFrame, hs]

theorem keepsLocals_setLine (s : State) (line : Nat) (frames : List Frame) :
    s.KeepsLocals frames (s.setLine line) := by
  unfold setLine
  split
  · exact .refl s frames
  · exact .of_eq rfl rfl

theorem keepsLocals_declare (h : s.WellFormed) (hs : s.stack = top :: below) (d : Declaration) :
    s.KeepsLocals below (s.declare d) := by
  -- making a binding changes no binding that has a place
  have created : ∀ {name type : String} {x : Slot} {b : BindingId}, s.slot? x = some b →
      (s.store.declare name type).2.get b = s.store.get b := by
    intro name type x b hb
    refine s.store.get_create_of_ne _ _ _ fun e => ?_
    exact s.store.not_has_create _ _ _ (e ▸ h.sound.has hb)
  have hd := s.declares_declare d
  generalize s.declare d = s' at hd
  cases hd with
  | nothing => exact .refl s below
  | ofClass => exact ⟨fun _ _ => rfl, fun _ _ _ _ hb => created hb⟩
  | @ofCall frame htop =>
    rw [top?, hs, List.head?_cons, Option.some.injEq] at htop
    subst htop
    refine ⟨fun frame hf => ?_, fun _ _ _ _ hb => created hb⟩
    have hne := h.framed.id_ne_top hs hf
    simp only [Handles.get?_update, if_neg hne, Option.map_id']

mutual

theorem field_of_mem_writtenInto {s : State} {child : BindingId} {v : Literal} {y : Slot}
    (hy : y ∈ s.writtenInto child v) : ∃ c name, y = .field c name := by
  match v with
  | .object fields =>
    rw [writtenInto] at hy
    exact field_of_mem_writtenFields hy
  | .quoted _ | .bare _ | .array _ => simp [writtenInto] at hy

theorem field_of_mem_writtenFields {s : State} {parent : BindingId}
    {fields : List (String × Literal)} {y : Slot} (hy : y ∈ s.writtenFields parent fields) :
    ∃ c name, y = .field c name := by
  match fields with
  | [] => simp [writtenFields] at hy
  | (name, v) :: fields =>
    rw [writtenFields] at hy
    rcases List.mem_cons.1 hy with rfl | hy
    · exact ⟨_, _, rfl⟩
    · rcases List.mem_append.1 hy with hy | hy
      · exact field_of_mem_writtenInto hy
      · exact field_of_mem_writtenFields hy

end

theorem field_of_mem_written {a : Assignment} {y : Slot} (hy : y ∈ s.written a) :
    ∃ c name, y = .field c name := by
  unfold written at hy
  split at hy
  · cases hy
  · exact field_of_mem_writtenFields hy

/-- **An assignment writes no local variable of a caller**, by whatever name. -/
theorem keepsLocals_assign (h : s.WellFormed) (hs : s.stack = top :: below) (a : Assignment) :
    s.KeepsLocals below (s.assign a) where
  activation frame _ := by rw [(edits_assign h.sound a).activations]
  bindings frame hf name b hb := by
    have hne := h.framed.id_ne_top hs hf
    have w : s.Writes (fun e => e.slot ≠ .localVar frame.id name) (s.assign a) := by
      refine assign_writes_seen h.sound a (fun e _ _ hsees heq => ?_) (fun e _ hw heq => ?_)
        fun _ _ _ heq => by cases heq
      · have htop := hsees frame.id name heq
        rw [top?, hs, List.head?_cons, Option.map_some] at htop
        exact hne (Option.some.inj htop).symm
      · obtain ⟨c, n, hfield⟩ := field_of_mem_written hw
        rw [heq] at hfield
        cases hfield
    exact w.get_of_slot h.sound hb fun _ he => he

end Callers

end State

/-! ## Events in calls -/

namespace Replay

variable {r : Replay} {top : Frame} {below : List Frame}

theorem keepsLocals_handle (h : r.state.WellFormed) (hs : r.state.stack = top :: below) {e : Event}
    (he : e.isPlain) : r.state.KeepsLocals below (r.handle e).state := by
  cases e with
  | statement line => exact State.keepsLocals_setLine _ _ below
  | declaration d => exact State.keepsLocals_declare h hs d
  | assignment a => exact State.keepsLocals_assign h hs a
  | debug | other => exact .refl _ below
  | _ => cases he

theorem stack_declare (s : State) (d : Declaration) : (s.declare d).stack = s.stack := by
  have hd := s.declares_declare d
  generalize s.declare d = s' at hd
  cases hd <;> rfl

theorem stack_handle (h : r.state.WellFormed) (hs : r.state.stack = top :: below) {e : Event}
    (he : e.isPlain) : ∃ line, (r.handle e).state.stack = { top with line } :: below := by
  cases e with
  | statement line =>
    refine ⟨r.frameLine line, ?_⟩
    show (r.state.setLine (r.frameLine line)).stack = _
    simp only [State.setLine, hs]
  | declaration d => exact ⟨top.line, (stack_declare r.state d).trans hs⟩
  | assignment a =>
    exact ⟨top.line, (State.edits_assign (g := false) h.sound a).sameFrames.stack.trans hs⟩
  | debug | other => exact ⟨top.line, hs⟩
  | _ => cases he

theorem stack_call (h : r.state.WellFormed) (signature : String) :
    r.state.KeepsLocals r.state.stack (r.handle (.call signature)).state ∧
      ∃ frame, (r.handle (.call signature)).state.stack = frame :: r.state.stack ∧
        frame.name = signature :=
  ⟨State.keepsLocals_pushFrame h.framed _ _ _ _ _ _, _, rfl, rfl⟩

theorem state_finish (h : r.state.WellFormed) (hs : r.state.stack = top :: below)
    (signature : String) : (r.handle (.finish signature)).state =
      if Text.startsWith signature top.name then r.state.popFrame else r.state := by
  have hf : top ∈ r.state.stack := hs ▸ List.mem_cons_self
  obtain ⟨activation, ha⟩ := h.framed.exists_activation hf
  have htop : r.state.topActivation? = some activation := by
    rw [State.topActivation?, State.top?, hs, List.head?_cons, Option.bind_some, ha]
  simp only [handle, handleFinish, htop, h.framed.signature hf ha]
  split <;> rfl

end Replay

namespace Course

variable {e e' : Option Event} {s s' : State} {t : Turn} {ts : List Turn}

theorem idles (c : Course e s [] e' s') : s.Idles e s' := by
  cases c with
  | nil idles => exact idles

theorem sameCalls_idles (idles : s.Idles e s') (he : e ≠ some .logStart) :
    s'.stack = s.stack ∧ ∀ frames, s.KeepsLocals frames s' := by
  obtain ⟨handles, rfl⟩ := idles.eq_handles he
  exact ⟨rfl, fun _ => .of_eq rfl rfl⟩

/-- The first turn behind an event of the log finds the calls as they were. -/
theorem head (c : Course e s (t :: ts) e' s') (he : e ≠ some .logStart) (h : s.WellFormed) :
    ∃ r : Replay, r.state.stack = s.stack ∧ (∀ frames, s.KeepsLocals frames r.state) ∧
      r.state.WellFormed ∧ (r.handle t.event).state = t.after ∧ t.after.WellFormed ∧
      Course (some t.event) t.after ts e' s' := by
  cases c with
  | cons idles handled rest =>
    obtain ⟨r, hr, hr'⟩ := handled
    have hwf : r.state.WellFormed := by
      rw [hr]
      exact Replay.wellFormed_idles idles h
    have hwf' : t.after.WellFormed := by
      rw [← hr']
      exact Replay.wellFormed_handle hwf t.event
    obtain ⟨hstack, hkeeps⟩ := sameCalls_idles idles he
    rw [← hr] at hstack hkeeps
    exact ⟨r, hstack, hkeeps, hwf, hr', hwf', rest⟩

end Course

/-- Events that leave the callers of a call alone, however they are reached: behind them that call
is the current one, though perhaps at another line. -/
def LeavesCallers (signature : String) (events : List Event) : Prop :=
  ∀ {ts : List Turn} {e e' : Option Event} {s s' : State} {top : Frame} {below : List Frame},
    ts.map Turn.event = events → Course e s ts e' s' → e ≠ some .logStart → s.WellFormed →
    s.stack = top :: below → top.name = signature →
    e' ≠ some .logStart ∧ s'.WellFormed ∧ s.KeepsLocals below s' ∧
      ∃ line, s'.stack = { top with line } :: below

/-- **Behind a whole call** the calls are as they were, when what happens in it leaves its callers
alone. -/
theorem LeavesCallers.sameCalls {signature signature' : String} {ts us : List Turn} {t u : Turn}
    {e e' : Option Event} {s s' : State} (body : LeavesCallers signature (ts.map Turn.event))
    (c : Course e s (t :: (ts ++ u :: us)) e' s') (he : e ≠ some .logStart) (h : s.WellFormed)
    (begins : t.event = .call signature) (ends : u.event = .finish signature')
    (matched : Text.startsWith signature' signature) :
    s.SameCalls u.after ∧ u.after.WellFormed ∧ Course (some u.event) u.after us e' s' := by
  -- the call begins
  obtain ⟨r, hstack, hidle, hwf, hafter, hwf', c⟩ := c.head he h
  obtain ⟨hcall, frame, hframe, hname⟩ := Replay.stack_call hwf signature
  rw [begins] at hafter
  rw [hafter, hstack] at hcall hframe
  obtain ⟨e₁, s₁, c, c'⟩ := c.of_append
  have hne : some t.event ≠ some .logStart := by simp [begins]
  obtain ⟨he₁, hwf₁, hbody, line, hstack₁⟩ := body rfl c hne hwf' hframe hname
  -- and ends
  obtain ⟨r₁, hstack₂, hidle₁, hwf₁', hafter₁, hwf₂, c'⟩ := c'.head he₁ hwf₁
  rw [hstack₁] at hstack₂
  rw [ends, Replay.state_finish hwf₁' hstack₂, hname, if_pos matched] at hafter₁
  have hpop := State.keepsLocals_popFrame hwf₁'.framed hstack₂
  rw [hafter₁] at hpop
  have hkeeps := (hidle s.stack).trans (hcall.trans (hbody.trans ((hidle₁ s.stack).trans hpop)))
  refine ⟨⟨?_, hkeeps⟩, hwf₂, c'⟩
  rw [← hafter₁]
  simp only [State.popFrame, hstack₂]

/-- **All that happens in a call leaves its callers alone.** By induction on what happens; a call
inside leaves its callers alone too, and this call is one of them. -/
theorem Body.leavesCallers {signature : String} {events : List Event}
    (body : Body signature events) : LeavesCallers signature events := by
  intro ts e e' s s' top below hts c he h hs hname
  induction body generalizing ts e e' s s' top below with
  | nil =>
    rw [List.map_eq_nil_iff] at hts
    subst hts
    obtain ⟨hstack, hkeeps⟩ := Course.sameCalls_idles c.idles he
    cases c with
    | nil idles =>
      exact ⟨he, Replay.wellFormed_idles idles h, hkeeps below, top.line, hstack.trans hs⟩
  | plain hplain _ ih =>
    obtain ⟨t, ts, rfl, rfl, hrest⟩ := List.map_eq_cons_iff.1 hts
    obtain ⟨r, hstack, hidle, hwf, hafter, hwf', c⟩ := c.head he h
    have hs' : r.state.stack = top :: below := hstack.trans hs
    have hkeeps := Replay.keepsLocals_handle hwf hs' hplain
    obtain ⟨line, hline⟩ := Replay.stack_handle hwf hs' hplain
    rw [hafter] at hkeeps hline
    have hne : some t.event ≠ some .logStart := by
      intro heq
      rw [Option.some.inj heq] at hplain
      cases hplain
    obtain ⟨he', hwf'', hkeeps', hrest'⟩ := ih hrest c hne hwf' hline hname
    exact ⟨he', hwf'', (hidle below).trans (hkeeps.trans hkeeps'), hrest'⟩
  | unmatched hother _ ih =>
    obtain ⟨t, ts, rfl, hevent, hrest⟩ := List.map_eq_cons_iff.1 hts
    obtain ⟨r, hstack, hidle, hwf, hafter, hwf', c⟩ := c.head he h
    have hs' : r.state.stack = top :: below := hstack.trans hs
    rw [hevent, Replay.state_finish hwf hs', hname, if_neg hother] at hafter
    rw [hafter] at hidle hs'
    have hne : some t.event ≠ some .logStart := by simp [hevent]
    obtain ⟨he', hwf'', hkeeps', hrest'⟩ := ih hrest c hne hwf' hs' hname
    exact ⟨he', hwf'', (hidle below).trans hkeeps', hrest'⟩
  | block _ hmatched _ ih ih' =>
    obtain ⟨t, ts, rfl, hevent, hrest⟩ := List.map_eq_cons_iff.1 hts
    obtain ⟨body, ts', rfl, rfl, htail⟩ := List.map_eq_append_iff.1 hrest
    obtain ⟨u, us, rfl, hevent', htail⟩ := List.map_eq_cons_iff.1 htail
    have hinner : LeavesCallers _ (body.map Turn.event) := ih
    obtain ⟨same, hwf, c⟩ := hinner.sameCalls c he h hevent hevent' hmatched
    have hne : some u.event ≠ some .logStart := by simp [hevent']
    obtain ⟨he', hwf', hkeeps', hrest'⟩ := ih' htail c hne hwf (same.stack.trans hs) hname
    have hbelow : s.KeepsLocals below u.after := by
      refine same.keeps.mono fun frame hf => ?_
      rw [hs]
      exact List.mem_cons_of_mem _ hf
    exact ⟨he', hwf', hbelow.trans hkeeps', hrest'⟩

namespace Replay

/-- **Calls leave their callers alone.** In a run of any operations, with any overlays shown and
taken off in between, let the log tell of a call with a balanced body. Behind its end the calls are
as they were before its beginning; so they are in the live state, when the run ends there. -/
theorem sameCalls_of_balanced (config : Config) (resolver : Resolver) (lines : List String)
    (ops : List Operation) {pre body post : List Turn} {entry exit : Turn}
    {signature signature' : String}
    (run : (fresh config resolver lines).turnsAlong ops = pre ++ entry :: (body ++ exit :: post))
    (begins : entry.event = .call signature) (balanced : Body signature (body.map Turn.event))
    (ends : exit.event = .finish signature') (matched : Text.startsWith signature' signature) :
    (∃ rest, eventsOf lines = pre.map Turn.event ++
      .call signature :: (body.map Turn.event ++ .finish signature' :: rest)) ∧
    entry.before.SameCalls exit.after ∧
    (post = [] → entry.before.SameCalls ((fresh config resolver lines).performAll ops).live) := by
  have hahead := turnsAlong_append_ahead ops (fresh config resolver lines)
  rw [run] at hahead
  have hwf : entry.before.WellFormed := by
    refine ((wellFormed_turnsAlong (r := fresh config resolver lines) .empty ops).1 entry ?_).1
    rw [run]
    exact List.mem_append_right _ List.mem_cons_self
  have c := course_turnsAlong ops (fresh config resolver lines)
  rw [run] at c
  obtain ⟨_, _, -, c⟩ := c.of_append
  cases c with
  | cons _ handled c =>
    have c' : Course none entry.before (entry :: (body ++ exit :: post)) _ _ :=
      .cons .refl handled c
    have hbody : LeavesCallers signature (body.map Turn.event) := balanced.leavesCallers
    obtain ⟨same, -, rest⟩ := hbody.sameCalls c' (by simp) hwf begins ends matched
    refine ⟨⟨post.map Turn.event ++
      ((fresh config resolver lines).performAll ops).eventsAhead, ?_⟩, same, ?_⟩
    · show (fresh config resolver lines).eventsAhead = _
      rw [← hahead]
      simp [begins, ends]
    · rintro rfl
      obtain ⟨hstack, hkeeps⟩ := Course.sameCalls_idles rest.idles (by simp [ends])
      exact ⟨hstack.trans same.stack, same.keeps.trans (hkeeps _)⟩

/-- A method calls itself, with a checkpoint passed on the way. Both calls have a variable of the
same name. -/
def recursiveLog : List String :=
  ["62.0 APEX_CODE,FINEST",
    "0|METHOD_ENTRY|[1]|1|A.f()",
    "0|VARIABLE_SCOPE_BEGIN|[2]|x|Integer|true|false",
    "0|VARIABLE_ASSIGNMENT|[2]|x|1",
    "0|STATEMENT_EXECUTE|[2]",
    "0|METHOD_ENTRY|[3]|1|A.f()",
    "0|VARIABLE_SCOPE_BEGIN|[2]|x|Integer|true|false",
    "0|VARIABLE_ASSIGNMENT|[2]|x|5",
    "0|METHOD_EXIT|[1]|1|A.g()",
    "0|HEAP_DUMP|[2]|s|A||2",
    "0|STATEMENT_EXECUTE|[2]",
    "0|METHOD_EXIT|[3]|1|A.f()",
    "0|STATEMENT_EXECUTE|[4]"]

set_option maxRecDepth 100000 in
/-- Behind the inner call the outer one is as before, although an overlay was shown meanwhile. -/
theorem sameCalls_recursiveLog :
    let r := fresh {} (fun _ => none) recursiveLog
    let ops : List Operation :=
      [.scan, .setSnapshot "s" ⟨[]⟩, .advance, .advance, .advance, .applyOverlayAtTop, .advance]
    (r.performAll (ops.take 6)).hasOverlay = true ∧
      ∃ pre entry body exit post,
        r.turnsAlong ops = pre ++ entry :: (body ++ exit :: post) ∧
          entry.event = .call "A.f()" ∧ Body "A.f()" (body.map Turn.event) ∧
          exit.event = .finish "A.f()" ∧ Text.startsWith "A.f()" "A.f()" = true ∧
          entry.before.SameCalls exit.after := by
  intro r ops
  obtain ⟨hoverlay, hevents⟩ : (r.performAll (ops.take 6)).hasOverlay = true ∧
      (r.turnsAlong ops).map Turn.event =
        [.logStart, .call "A.f()", .declaration ⟨"x", "Integer", false⟩,
          .assignment ⟨"x", "1", none⟩, .statement 2] ++ .call "A.f()" ::
        ([.declaration ⟨"x", "Integer", false⟩, .assignment ⟨"x", "5", none⟩, .finish "A.g()",
          .other, .statement 2] ++ .finish "A.f()" :: [.statement 4]) := by
    decide +kernel
  obtain ⟨pre, rest, hrun, -, hrest⟩ := List.map_eq_append_iff.1 hevents
  obtain ⟨entry, rest, rfl, hentry, hrest⟩ := List.map_eq_cons_iff.1 hrest
  obtain ⟨body, rest, rfl, hbody, hrest⟩ := List.map_eq_append_iff.1 hrest
  obtain ⟨exit, post, rfl, hexit, -⟩ := List.map_eq_cons_iff.1 hrest
  have balanced : Body "A.f()" (body.map Turn.event) := by
    rw [hbody]
    exact .plain rfl (.plain rfl (.unmatched (by decide) (.plain rfl (.plain rfl .nil))))
  exact ⟨hoverlay, pre, entry, body, exit, post, hrun, hentry, balanced, hexit, by decide,
    (sameCalls_of_balanced {} (fun _ => none) recursiveLog ops hrun hentry balanced hexit
      (by decide)).2.1⟩

end Replay

end Retrace
