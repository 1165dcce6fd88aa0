import Retrace.Proofs.Replay.Runs
import Retrace.Proofs.Text.Cuts

/-!
# Markers

The snapshot shown at a stop is looked up twice. The marker passed last has to be of the place of
the current frame; but what is shown is the first checkpoint of that place in the whole log. These
are two checkpoints when one was announced before: in a loop that passes its checkpoint again, or
in a class whose name occurs in the name of the frame.

* `markedBy?`, `lastMarked?`: the markers among lines; `announced`: what a search finds in them.
* `Replay.Tracks`, **`Replay.Tracks.perform`**: a replay knows the checkpoints of its log, and the
  marker it has passed last.
* `Replay.Tracks.bare_checkpointAtTop?`, `Replay.Tracks.exists_checkpointAtTop?`: which checkpoint
  is found, and when.
* **`Replay.showsPassed_iff`**: when it is that of the marker passed last.
-/

namespace Retrace

/-! ## Lines of markers -/

namespace Text

theorem contains_of_append {s w : String} {u v : List Char}
    (h : s.toList = u ++ (w.toList ++ v)) : contains s w = true := by
  rw [contains, h]
  clear h
  induction u with
  | nil =>
    cases hw : w.toList with
    | nil => cases v <;> simp [afterWord]
    | cons c cs => simp [afterWord]
  | cons c u ih =>
    rw [List.cons_append, afterWord]
    split
    · rfl
    · exact ih

end Text

/-- The checkpoint that a line marks, when it is a marker with enough fields. -/
def markedBy? (line : String) : Option Checkpoint :=
  match lineFields line with
  | fields@(_ :: kind :: _ :: _) =>
    if kind = markerKind then Checkpoint.ofFields? fields else none
  | _ => none

/-- The checkpoint of the last marker among lines, with the lines before that marker. -/
def lastMarked? : List String → Option (List String × Checkpoint)
  | [] => none
  | line :: rest =>
    match lastMarked? rest with
    | some (before, m) => some (line :: before, m)
    | none => (markedBy? line).map fun m => ([], m)

/-- What is found, if it is a checkpoint. -/
def ScanResult.checkpoint? : ScanResult → Option Checkpoint
  | .found c => some c
  | _ => none

/-- The checkpoints that a search of lines finds. -/
def announced (lines : List String) : List Checkpoint :=
  lines.filterMap fun line => (scanLine line).checkpoint?

/-- The checkpoint without what was captured. -/
def Checkpoint.bare (c : Checkpoint) : Checkpoint := { c with snapshot := none }

theorem announced_append (ls ls' : List String) :
    announced (ls ++ ls') = announced ls ++ announced ls' := List.filterMap_append

theorem contains_of_fields {line a kind b : String} {rest : List String}
    (h : lineFields line = a :: kind :: b :: rest) :
    Text.contains line ("|" ++ kind ++ "|") = true := by
  obtain ⟨p, ps, hpieces, rfl, hps⟩ := List.map_eq_cons_iff.1 h
  obtain ⟨q, qs, rfl, rfl, hqs⟩ := List.map_eq_cons_iff.1 hps
  obtain ⟨s, ss, rfl, rfl, -⟩ := List.map_eq_cons_iff.1 hqs
  obtain ⟨behind, hline, hbehind⟩ := Text.eq_append_of_pieces hpieces
  obtain ⟨end', rfl, -⟩ := Text.eq_append_of_pieces hbehind
  refine Text.contains_of_append (u := p) (v := end') ?_
  rw [hline]
  simp

theorem scanLine_of_markedBy? {line : String} {m : Checkpoint} (h : markedBy? line = some m) :
    scanLine line = .found m := by
  unfold markedBy? at h
  split at h
  · next fields a kind b rest hfields =>
    split at h
    · next hkind =>
      have hcontains := contains_of_fields hfields
      have hword : "|" ++ markerKind ++ "|" = "|HEAP_DUMP|" := by decide
      rw [hkind, hword] at hcontains
      rw [scanLine, if_pos hcontains, hfields, h]
    · cases h
  · cases h

theorem lastMarked?_append (ls ls' : List String) :
    lastMarked? (ls ++ ls') =
      ((lastMarked? ls').map fun found => (ls ++ found.1, found.2)).or (lastMarked? ls) := by
  induction ls with
  | nil => cases h : lastMarked? ls' <;> simp [h, lastMarked?]
  | cons l ls ih =>
    rw [List.cons_append, lastMarked?, ih, lastMarked?]
    cases lastMarked? ls' <;> rfl

theorem lastMarked?_eq_none_iff {ls : List String} :
    lastMarked? ls = none ↔ ∀ line ∈ ls, markedBy? line = none := by
  induction ls with
  | nil => exact iff_of_true rfl fun _ h => absurd h List.not_mem_nil
  | cons l ls ih =>
    rw [List.forall_mem_cons, ← ih, lastMarked?]
    cases lastMarked? ls <;> simp

theorem lastMarked?_concat (ls : List String) (line : String) :
    lastMarked? (ls ++ [line]) =
      ((markedBy? line).map fun m => (ls, m)).or (lastMarked? ls) := by
  rw [lastMarked?_append]
  cases h : markedBy? line <;> simp [lastMarked?, h]

theorem eq_append_of_lastMarked? {ls before : List String} {m : Checkpoint}
    (h : lastMarked? ls = some (before, m)) :
    ∃ line after, ls = before ++ line :: after ∧ markedBy? line = some m ∧
      lastMarked? after = none := by
  induction ls generalizing before with
  | nil => cases h
  | cons l ls ih =>
    rw [lastMarked?] at h
    split at h
    · next before' m' hrest =>
      cases h
      obtain ⟨line, after, rfl, hline, hafter⟩ := ih hrest
      exact ⟨line, after, rfl, hline, hafter⟩
    · next hrest =>
      obtain ⟨m', hm, heq⟩ := Option.map_eq_some_iff.1 h
      cases heq
      exact ⟨l, ls, rfl, hm, hrest⟩

/-- **The last marker is announced**, behind all that the lines before it announce. -/
theorem announced_of_lastMarked? {ls before : List String} {m : Checkpoint}
    (h : lastMarked? ls = some (before, m)) :
    ∃ rest, announced ls = announced before ++ m :: rest := by
  obtain ⟨line, after, rfl, hline, -⟩ := eq_append_of_lastMarked? h
  have hfound : (scanLine line).checkpoint? = some m := by
    rw [scanLine_of_markedBy? hline]
    rfl
  refine ⟨announced after, ?_⟩
  rw [announced_append]
  exact congrArg _ (List.filterMap_cons_some hfound)

theorem snapshot_of_mem_announced {lines : List String} {c : Checkpoint}
    (h : c ∈ announced lines) : c.snapshot = none := by
  obtain ⟨line, -, hc⟩ := List.mem_filterMap.1 h
  unfold scanLine at hc
  split at hc
  · split at hc
    · next c' hfields =>
      cases hc
      unfold Checkpoint.ofFields? at hfields
      split at hfields
      · cases hfields
        rfl
      · cases hfields
    · cases hc
  · cases hc

namespace Replay

/-! ## What a replay knows of the log -/

/-- The replay knows the checkpoints of its log. The marker noted, if there is one, is the last
among the lines consumed; and this one is noted, when `remembers` holds and it does not stand in
the first line, which begins the log. -/
structure Tracks (remembers : Prop) (r : Replay) : Prop where
  checkpoints : r.checkpoints.map Checkpoint.bare = announced r.lines
  start : r.current = none →
    r.lastMarker = none ∧ ∀ line ∈ r.lines.take r.nextIndex, line = ""
  marker : ∀ k, r.lastMarker = some k → ∃ before m,
    lastMarked? (r.lines.take r.nextIndex) = some (before, m) ∧ k = (m.className, m.line)
  noted : remembers → ∀ before m, lastMarked? (r.lines.take r.nextIndex) = some (before, m) →
    (∃ line ∈ before, line ≠ "") → r.lastMarker = some (m.className, m.line)

theorem lastMarker_noteMarker (r : Replay) (line : String) :
    (r.noteMarker line).lastMarker =
      ((markedBy? line).map fun m => (m.className, m.line)).or r.lastMarker := by
  unfold noteMarker markedBy?
  rcases lineFields line with _ | ⟨a, _ | ⟨kind, _ | ⟨b, rest⟩⟩⟩
  · rfl
  · rfl
  · rfl
  · dsimp only
    by_cases hkind : kind = markerKind
    · rw [if_pos hkind, if_pos hkind]
      cases Checkpoint.ofFields? (a :: kind :: b :: rest) <;> rfl
    · rw [if_neg hkind, if_neg hkind]
      rfl

theorem checkpoints_step (r : Replay) (line : String) :
    (r.step line).2.checkpoints = r.checkpoints := by
  obtain ⟨_, _, hstep⟩ := r.step_snd line
  obtain ⟨_, _, _, hclassify⟩ := r.classify_snd line
  rw [hstep, hclassify]

/-- A line notes its marker, but for the line that begins the log. -/
theorem lastMarker_step (r : Replay) (line : String) :
    (r.step line).2.lastMarker =
      if r.current.isNone then r.lastMarker
      else ((markedBy? line).map fun m => (m.className, m.line)).or r.lastMarker := by
  have hscript : (r.noteScript line).lastMarker = r.lastMarker := by
    unfold noteScript
    split <;> rfl
  obtain ⟨state, messages, h⟩ := r.step_snd line
  rw [h]
  show (r.classify line).2.lastMarker = _
  unfold classify
  cases r.current with
  | none => rfl
  | some e =>
    show ((r.noteScript line).noteMarker line).lastMarker = _
    rw [lastMarker_noteMarker, hscript]
    rfl

theorem take_moveOn {r : Replay} {line : String} {rest : List String}
    (h : r.lines.drop r.nextIndex = line :: rest) :
    r.moveOn.lines.take r.moveOn.nextIndex = r.lines.take r.nextIndex ++ [line] := by
  rw [lines_moveOn, nextIndex_moveOn, List.take_add, h]
  rfl

namespace Tracks

variable {remembers : Prop} {r q : Replay}

/-- Only the checkpoints, the marker and the place in the log matter. -/
theorem congr (h : r.Tracks remembers) (checkpoints : q.checkpoints.map Checkpoint.bare =
      r.checkpoints.map Checkpoint.bare) (lastMarker : q.lastMarker = r.lastMarker)
    (lines : q.lines = r.lines) (position : q.position = r.position)
    (current : q.current = r.current) : q.Tracks remembers where
  checkpoints := by rw [checkpoints, lines, h.checkpoints]
  start := by
    rw [lastMarker, current, lines, nextIndex, position]
    exact h.start
  marker := by
    rw [lastMarker, lines, nextIndex, position]
    exact h.marker
  noted := by
    rw [lastMarker, lines, nextIndex, position]
    exact h.noted

theorem moveOn (h : r.Tracks remembers) {rest : List String}
    (hls : r.lines.drop r.nextIndex = "" :: rest) : r.moveOn.Tracks remembers := by
  have hlast : lastMarked? (r.moveOn.lines.take r.moveOn.nextIndex) =
      lastMarked? (r.lines.take r.nextIndex) := by
    have hempty : markedBy? "" = none := by decide
    rw [take_moveOn hls, lastMarked?_concat, hempty]
    rfl
  refine ⟨h.checkpoints, fun hc => ⟨(h.start hc).1, ?_⟩, ?_, ?_⟩
  · intro line hline
    rw [take_moveOn hls, List.mem_append, List.mem_singleton] at hline
    exact hline.elim ((h.start hc).2 line) id
  · rw [hlast]
    exact h.marker
  · rw [hlast]
    exact h.noted

theorem step (h : r.Tracks remembers) {line : String} {rest : List String}
    (hls : r.lines.drop r.nextIndex = line :: rest) :
    (r.moveOn.step line).2.Tracks remembers := by
  have hlast : lastMarked? ((r.moveOn.step line).2.lines.take (r.moveOn.step line).2.nextIndex) =
      ((markedBy? line).map fun m => (r.lines.take r.nextIndex, m)).or
        (lastMarked? (r.lines.take r.nextIndex)) := by
    rw [lines_step, nextIndex_step, take_moveOn hls, lastMarked?_concat]
  have hmarker : (r.moveOn.step line).2.lastMarker =
      if r.current.isNone then r.lastMarker
      else ((markedBy? line).map fun m => (m.className, m.line)).or r.lastMarker :=
    r.moveOn.lastMarker_step line
  have hcheckpoints : (r.moveOn.step line).2.checkpoints.map Checkpoint.bare =
      announced (r.moveOn.step line).2.lines := by
    rw [checkpoints_step, lines_step]
    exact h.checkpoints
  refine ⟨hcheckpoints, fun hc => (by cases hc), fun k hk => ?_, fun hr before m hm hbefore => ?_⟩
  · rw [hmarker] at hk
    rw [hlast]
    split at hk
    · next hnone =>
      rw [(h.start (Option.isNone_iff_eq_none.1 hnone)).1] at hk
      cases hk
    · cases hline : markedBy? line with
      | some m =>
        rw [hline] at hk
        cases hk
        exact ⟨_, m, rfl, rfl⟩
      | none =>
        rw [hline] at hk
        exact h.marker k hk
  · rw [hlast] at hm
    rw [hmarker]
    cases hline : markedBy? line with
    | none =>
      rw [hline] at hm
      rw [h.noted hr before m hm hbefore]
      simp
    | some m' =>
      rw [hline] at hm
      cases hm
      -- a line before was not empty, so the log has begun
      have hbegun : r.current.isNone = false := by
        refine Bool.eq_false_iff.2 fun hnone => ?_
        obtain ⟨l, hl, hne⟩ := hbefore
        exact hne ((h.start (Option.isNone_iff_eq_none.1 hnone)).2 l hl)
      rw [hbegun]
      rfl

theorem consume {ls : List String} (h : r.Tracks remembers)
    (hls : r.lines.drop r.nextIndex = ls) : (consume ls r).Tracks remembers := by
  induction ls generalizing r with
  | nil =>
    -- all lines have been consumed before already
    have hall : r.lines.take (r.lines.length + 1) = r.lines.take r.nextIndex := by
      have hsplit := List.take_append_drop r.nextIndex r.lines
      rw [hls, List.append_nil] at hsplit
      rw [hsplit, List.take_of_length_le (Nat.le_succ _)]
    refine ⟨h.checkpoints, ?_, ?_, ?_⟩
    · show r.current = none → r.lastMarker = none ∧
        ∀ line ∈ r.lines.take (r.lines.length + 1), line = ""
      rw [hall]
      exact h.start
    · show ∀ k, r.lastMarker = some k → ∃ before m,
        lastMarked? (r.lines.take (r.lines.length + 1)) = some (before, m) ∧ _
      rw [hall]
      exact h.marker
    · show remembers → ∀ before m,
        lastMarked? (r.lines.take (r.lines.length + 1)) = some (before, m) → _
      rw [hall]
      exact h.noted
  | cons line rest ih =>
    obtain ⟨hrest, hstep⟩ := drop_moveOn hls
    simp only [Replay.consume]
    split
    · next hempty => exact ih (h.moveOn (hempty ▸ hls)) hrest
    · split
      · exact h.step hls
      · exact ih (h.step hls) hstep

theorem revertOverlay (h : r.Tracks remembers) : r.revertOverlay.2.Tracks remembers := by
  rw [revertOverlay_snd]
  exact h.congr rfl rfl rfl rfl rfl

theorem applyOverlay (h : r.Tracks remembers) : r.applyOverlay.2.Tracks remembers := by
  unfold Replay.applyOverlay
  dsimp only
  split
  · exact h.revertOverlay
  · exact h.revertOverlay.congr rfl rfl rfl rfl rfl

theorem advance (h : r.Tracks remembers) : r.advance.Tracks remembers := by
  refine consume (h.revertOverlay.congr ?_ ?_ ?_ ?_ ?_) rfl <;>
    · unfold dropLogFrame
      split <;> rfl

end Tracks

theorem scan_snd (r : Replay) : ∃ messages,
    r.scan.2 = { r with checkpoints := announced r.lines, messages } := by
  have key : ∀ (ls : List String) (i : Nat) (q : Replay), ∃ messages,
      (ls.zipIdx i).foldl (fun q e => q.scanStep e.1 e.2) q =
        { q with checkpoints := q.checkpoints ++ announced ls, messages } := by
    intro ls
    induction ls with
    | nil =>
      intro i q
      exact ⟨q.messages, by simp [announced]⟩
    | cons line ls ih =>
      intro i q
      obtain ⟨messages, hrest⟩ := ih (i + 1) (q.scanStep line i)
      refine ⟨messages, ?_⟩
      rw [List.zipIdx_cons, List.foldl_cons, hrest]
      unfold scanStep announced
      cases hscan : scanLine line <;> simp [ScanResult.checkpoint?, hscan, say]
  obtain ⟨messages, h⟩ := key r.lines 0 { r with checkpoints := [] }
  exact ⟨messages, h⟩

theorem bare_attach (id : String) (snapshot : Snapshot) (cs : List Checkpoint) :
    (attach id snapshot cs).map Checkpoint.bare = cs.map Checkpoint.bare := by
  induction cs with
  | nil => rfl
  | cons c cs ih =>
    rw [attach]
    split
    · rfl
    · rw [List.map_cons, ih, List.map_cons]

theorem checkpoints_scan (r : Replay) :
    r.scan.2.checkpoints.map Checkpoint.bare = announced r.lines := by
  obtain ⟨messages, h⟩ := r.scan_snd
  rw [h]
  refine (List.map_congr_left fun c hc => ?_).trans (List.map_id _)
  show { c with snapshot := none } = c
  rw [← snapshot_of_mem_announced hc]

theorem tracks_scan_fresh (remembers : Prop) (config : Config) (resolver : Resolver)
    (lines : List String) : (fresh config resolver lines).scan.2.Tracks remembers := by
  obtain ⟨messages, h⟩ := (fresh config resolver lines).scan_snd
  have hcheckpoints := (fresh config resolver lines).checkpoints_scan
  rw [h] at hcheckpoints ⊢
  exact ⟨hcheckpoints, fun _ => ⟨rfl, fun _ hl => absurd hl List.not_mem_nil⟩,
    fun _ hk => (by cases hk), fun _ _ _ hm => by cases hm⟩

/-- **Every operation keeps track.** -/
theorem Tracks.perform {remembers : Prop} {r : Replay} (h : r.Tracks remembers) (op : Operation)
    (hop : remembers → op ≠ .forgetMarker) : (r.perform op).Tracks remembers := by
  cases op with
  | advance => exact h.advance
  | applyOverlay => exact h.applyOverlay
  | applyOverlayAtTop =>
    simp only [Replay.perform, applyOverlayAtTop]
    split
    · exact h.applyOverlay
    · exact h
  | revertOverlay => exact h.revertOverlay
  | scan =>
    have hsame : r.scan.2.checkpoints.map Checkpoint.bare = r.checkpoints.map Checkpoint.bare :=
      r.checkpoints_scan.trans h.checkpoints.symm
    obtain ⟨messages, hscan⟩ := r.scan_snd
    rw [hscan] at hsame
    rw [Replay.perform, hscan]
    exact h.congr hsame rfl rfl rfl rfl
  | setSnapshot id snapshot => exact h.congr (bare_attach id snapshot _) rfl rfl rfl rfl
  | forgetMarker =>
    exact ⟨h.checkpoints, fun hc => ⟨rfl, (h.start hc).2⟩, fun _ hk => (by cases hk),
      fun hr => absurd rfl (hop hr)⟩
  | scopes frame =>
    obtain ⟨handles, hsnd, -⟩ := r.scopes_snd frame
    rw [Replay.perform, hsnd]
    exact h.congr rfl rfl rfl rfl rfl
  | views handle => exact h

theorem Tracks.run {r : Replay} {ops : List Operation} (h : r.Tracks (.forgetMarker ∉ ops)) :
    (r.performAll ops).Tracks (.forgetMarker ∉ ops) := by
  refine invariant_performAll ops (fun op hmem h => h.perform op fun hr heq => ?_) h
  exact hr (heq ▸ hmem)

/-! ## What is found and shown -/

/-- What is found at the current frame is of its place, and so is the marker noted. -/
theorem of_checkpointAtTop? {r : Replay} {c : Checkpoint} (h : r.checkpointAtTop? = some c) :
    ∃ frame className, r.state.top? = some frame ∧ r.lastMarker = some (className, frame.line) ∧
      Text.contains frame.name className = true ∧
      r.checkpointAt? frame.name frame.line = some c := by
  obtain ⟨frame, hframe, h⟩ := Option.bind_eq_some_iff.1 h
  obtain ⟨⟨className, line⟩, hmarker, h⟩ := Option.bind_eq_some_iff.1 h
  dsimp only at h
  split at h
  · next hat =>
    rw [Bool.and_eq_true, decide_eq_true_eq] at hat
    exact ⟨frame, className, hframe, hat.2 ▸ hmarker, hat.1, h⟩
  · cases h

/-- **The checkpoint of a place** where the last marker stands is the first one of this place among
those announced before that marker, or else that of the marker. -/
theorem Tracks.checkpointAt?_of_lastMarked? {remembers : Prop} {r : Replay}
    (h : r.Tracks remembers) {frame : Frame} {before : List String} {m : Checkpoint}
    (hlast : lastMarked? (r.lines.take r.nextIndex) = some (before, m))
    (hm : m.isAt frame.name frame.line = true) :
    (r.checkpointAt? frame.name frame.line).map Checkpoint.bare =
      some (((announced before).find? (·.isAt frame.name frame.line)).getD m) := by
  have hbare : (r.checkpointAt? frame.name frame.line).map Checkpoint.bare =
      (announced r.lines).find? (·.isAt frame.name frame.line) := by
    rw [← h.checkpoints, List.find?_map]
    rfl
  obtain ⟨rest, htake⟩ := announced_of_lastMarked? hlast
  have hlines : announced r.lines =
      announced before ++ m :: (rest ++ announced (r.lines.drop r.nextIndex)) := by
    have hsplit := announced_append (r.lines.take r.nextIndex) (r.lines.drop r.nextIndex)
    rwa [List.take_append_drop, htake, List.append_assoc, List.cons_append] at hsplit
  have hfirst : ∀ cs : List Checkpoint,
      (m :: cs).find? (·.isAt frame.name frame.line) = some m :=
    fun cs => List.find?_cons_of_pos hm
  rw [hbare, hlines, List.find?_append, hfirst]
  cases (announced before).find? (·.isAt frame.name frame.line) <;> rfl

theorem Tracks.bare_checkpointAtTop? {remembers : Prop} {r : Replay} (h : r.Tracks remembers)
    {frame : Frame} (hframe : r.state.top? = some frame) {c : Checkpoint}
    (hc : r.checkpointAtTop? = some c) :
    ∃ before m, lastMarked? (r.lines.take r.nextIndex) = some (before, m) ∧
      m.isAt frame.name frame.line = true ∧
      c.bare = ((announced before).find? (·.isAt frame.name frame.line)).getD m := by
  obtain ⟨frame', className, hframe', hmarker, hname, hat⟩ := of_checkpointAtTop? hc
  cases hframe.symm.trans hframe'
  obtain ⟨before, m, hlast, hkey⟩ := h.marker _ hmarker
  obtain ⟨rfl, hline⟩ := Prod.mk.inj hkey
  have hm : m.isAt frame.name frame.line = true := by
    simp [Checkpoint.isAt, hname, hline]
  have hfound := h.checkpointAt?_of_lastMarked? hlast hm
  rw [hat, Option.map_some] at hfound
  exact ⟨before, m, hlast, hm, Option.some.inj hfound⟩

/-- **Something is found** when the current frame stands at the last marker, unless this marker was
forgotten or stands in the line that begins the log. -/
theorem Tracks.exists_checkpointAtTop? {remembers : Prop} {r : Replay} (h : r.Tracks remembers)
    (hr : remembers) {frame : Frame} (hframe : r.state.top? = some frame) {before : List String}
    {m : Checkpoint} (hlast : lastMarked? (r.lines.take r.nextIndex) = some (before, m))
    (hbefore : ∃ line ∈ before, line ≠ "") (hm : m.isAt frame.name frame.line = true) :
    ∃ c, r.checkpointAtTop? = some c := by
  have hmarker := h.noted hr before m hlast hbefore
  have hat : (Text.contains frame.name m.className && decide (frame.line = m.line)) = true := by
    simp only [Checkpoint.isAt, Bool.and_eq_true, decide_eq_true_eq] at hm ⊢
    exact ⟨hm.1, hm.2.symm⟩
  obtain ⟨c, hc, -⟩ := Option.map_eq_some_iff.1 (h.checkpointAt?_of_lastMarked? hlast hm)
  refine ⟨c, ?_⟩
  rw [checkpointAtTop?, hframe, Option.bind_some, hmarker, Option.bind_some]
  exact (if_pos hat).trans hc

theorem mem_attach {id : String} {snapshot : Snapshot} {cs : List Checkpoint} {c : Checkpoint}
    (h : c ∈ attach id snapshot cs) : c.id = id ∧ c.snapshot = some snapshot ∨ c ∈ cs := by
  induction cs with
  | nil => exact .inr h
  | cons c' cs ih =>
    rw [attach] at h
    split at h
    · next hid =>
      rcases List.mem_cons.1 h with rfl | h
      · exact .inl ⟨hid, rfl⟩
      · exact .inr (List.mem_cons_of_mem _ h)
    · rcases List.mem_cons.1 h with rfl | h
      · exact .inr List.mem_cons_self
      · exact (ih h).imp_right (List.mem_cons_of_mem _)

theorem checkpoints_consume (ls : List String) (r : Replay) :
    (consume ls r).checkpoints = r.checkpoints := by
  induction ls generalizing r with
  | nil => rfl
  | cons line rest ih =>
    simp only [consume]
    split
    · exact ih r.moveOn
    · split
      · exact checkpoints_step r.moveOn line
      · exact (ih _).trans (checkpoints_step r.moveOn line)

theorem checkpoints_advance (r : Replay) : r.advance.checkpoints = r.checkpoints := by
  rw [advance, checkpoints_consume, revertOverlay_snd]
  unfold dropLogFrame
  split <;> rfl

theorem checkpoints_applyOverlay (r : Replay) :
    r.applyOverlay.2.checkpoints = r.checkpoints := by
  unfold applyOverlay
  rw [revertOverlay_snd]
  dsimp only
  split <;> rfl

theorem snapshot_perform {r : Replay} {op : Operation} {c : Checkpoint} {s : Snapshot}
    (hc : c ∈ (r.perform op).checkpoints) (hs : c.snapshot = some s) :
    op = .setSnapshot c.id s ∨ c ∈ r.checkpoints := by
  cases op with
  | advance => exact .inr (r.checkpoints_advance ▸ hc)
  | applyOverlay => exact .inr (r.checkpoints_applyOverlay ▸ hc)
  | applyOverlayAtTop =>
    simp only [perform, applyOverlayAtTop] at hc
    split at hc
    · exact .inr (r.checkpoints_applyOverlay ▸ hc)
    · exact .inr hc
  | revertOverlay =>
    rw [perform, revertOverlay_snd] at hc
    exact .inr hc
  | scan =>
    obtain ⟨messages, h⟩ := r.scan_snd
    rw [perform, h] at hc
    rw [snapshot_of_mem_announced hc] at hs
    cases hs
  | setSnapshot id snapshot =>
    rcases mem_attach hc with ⟨rfl, hsnapshot⟩ | hc
    · cases hsnapshot.symm.trans hs
      exact .inl rfl
    · exact .inr hc
  | forgetMarker => exact .inr hc
  | scopes frame =>
    obtain ⟨handles, hsnd, -⟩ := r.scopes_snd frame
    rw [perform, hsnd] at hc
    exact .inr hc
  | views handle => exact .inr hc

theorem snapshot_performAll {r : Replay} (ops : List Operation) {c : Checkpoint} {s : Snapshot}
    (hc : c ∈ (r.performAll ops).checkpoints) (hs : c.snapshot = some s) :
    .setSnapshot c.id s ∈ ops ∨ c ∈ r.checkpoints := by
  induction ops generalizing r with
  | nil => exact .inr hc
  | cons op ops ih =>
    rcases ih hc with hmem | hmem
    · exact .inl (List.mem_cons_of_mem _ hmem)
    · rcases snapshot_perform hmem hs with rfl | hmem
      · exact .inl List.mem_cons_self
      · exact .inr hmem

/-- What is found at the current frame is the checkpoint of the marker passed last. -/
def ShowsPassed (r : Replay) : Prop :=
  ∀ c, r.checkpointAtTop? = some c → ∃ before m,
    lastMarked? (r.lines.take r.nextIndex) = some (before, m) ∧ c.id = m.id

/-- When something is found at the current frame, the checkpoints of its place that were announced
before the marker passed last do not stand in the way: there are none, or the first of them has the
id of that marker. -/
def Unrivalled (r : Replay) : Prop :=
  ∀ c, r.checkpointAtTop? = some c → ∀ frame before m a, r.state.top? = some frame →
    lastMarked? (r.lines.take r.nextIndex) = some (before, m) →
    (announced before).find? (·.isAt frame.name frame.line) = some a → a.id = m.id

theorem Tracks.showsPassed_iff_unrivalled {remembers : Prop} {r : Replay}
    (h : r.Tracks remembers) :
    r.ShowsPassed ↔ r.Unrivalled := by
  constructor
  · intro hshows c hc frame before m a hframe hlast ha
    obtain ⟨before', m', hlast', hid⟩ := hshows c hc
    obtain ⟨before'', m'', hlast'', -, hbare⟩ := h.bare_checkpointAtTop? hframe hc
    cases hlast.symm.trans hlast'
    cases hlast.symm.trans hlast''
    rw [ha, Option.getD_some] at hbare
    rw [← hbare, ← hid]
    rfl
  · intro hunrivalled c hc
    obtain ⟨frame, -, hframe, -⟩ := of_checkpointAtTop? hc
    obtain ⟨before, m, hlast, -, hbare⟩ := h.bare_checkpointAtTop? hframe hc
    refine ⟨before, m, hlast, ?_⟩
    have hid : c.id = c.bare.id := rfl
    rw [hid, hbare]
    cases hbefore : (announced before).find? (·.isAt frame.name frame.line) with
    | none => rfl
    | some a => exact hunrivalled c hc frame before m a hframe hlast hbefore

theorem applyOverlayAtTop_of_checkpoint {r : Replay} (h : r.WellFormed) {c : Checkpoint}
    (hc : r.checkpointAtTop? = some c) :
    r.applyOverlayAtTop.1 = c.snapshot.isSome ∧ ∀ s, c.snapshot = some s →
      r.applyOverlayAtTop.2.state = r.live.overlay s r.isRunningTrigger := by
  obtain ⟨frame, -, hframe, -, -, hat⟩ := of_checkpointAtTop? hc
  -- the overlay is looked up below the one shown so far, where the calls are the same
  have htop : r.live.top? = r.state.top? := by
    rw [State.top?, State.top?, h.shown.stack]
  have hsnapshot : (r.live.top?.bind fun frame =>
      (r.checkpointAt? frame.name frame.line).bind (·.snapshot)) = c.snapshot := by
    rw [htop, hframe, Option.bind_some, hat, Option.bind_some]
  have htrigger : ({ r with state := r.live, saved := none } : Replay).isRunningTrigger =
      r.isRunningTrigger := by
    rw [isRunningTrigger, isRunningTrigger, htop]
  rw [applyOverlayAtTop, if_pos (by rw [hc]; rfl), applyOverlay, revertOverlay_snd]
  dsimp only
  split
  · next hnone =>
    have hc : c.snapshot = none := hsnapshot.symm.trans hnone
    rw [hc]
    exact ⟨rfl, fun s hs => by cases hs⟩
  · next snapshot hsome =>
    have hc : c.snapshot = some snapshot := hsnapshot.symm.trans hsome
    rw [hc]
    refine ⟨rfl, fun s hs => ?_⟩
    cases hs
    rw [htrigger]

/-- **The snapshot shown at a stop is of the marker passed last** exactly when no other checkpoint
stands in the way. Let a log be searched, and then replayed with overlays, snapshots and looks
mixed in at will. When something is found at the current frame, then the marker passed last is of
the place of this frame; what is found is that marker's checkpoint, unless another one of the place
was announced before; and this is what an overlay shows, by a snapshot given for its id. As long as
no marker is forgotten, something is found wherever the frame stands at the last one. -/
theorem showsPassed_iff (config : Config) (resolver : Resolver) (lines : List String)
    (ops : List Operation) :
    let r := (fresh config resolver lines).scan.2.performAll ops
    (r.ShowsPassed ↔ r.Unrivalled) ∧
    (∀ c frame, r.checkpointAtTop? = some c → r.state.top? = some frame →
      (∃ before m, lastMarked? (r.lines.take r.nextIndex) = some (before, m) ∧
        m.isAt frame.name frame.line = true ∧
        c.bare = ((announced before).find? (·.isAt frame.name frame.line)).getD m) ∧
      r.applyOverlayAtTop.1 = c.snapshot.isSome ∧
      ∀ s, c.snapshot = some s → .setSnapshot c.id s ∈ ops ∧
        r.applyOverlayAtTop.2.state = r.live.overlay s r.isRunningTrigger) ∧
    (.forgetMarker ∉ ops → ∀ frame before m, r.state.top? = some frame →
      lastMarked? (r.lines.take r.nextIndex) = some (before, m) → (∃ line ∈ before, line ≠ "") →
      m.isAt frame.name frame.line = true → ∃ c, r.checkpointAtTop? = some c) := by
  intro r
  have htracks : r.Tracks (.forgetMarker ∉ ops) :=
    (tracks_scan_fresh _ config resolver lines).run
  have hwf : r.WellFormed := ((wellFormed_fresh config resolver lines).perform .scan).run ops
  refine ⟨htracks.showsPassed_iff_unrivalled, fun c frame hc hframe => ?_,
    fun hops frame before m hframe hlast hbefore hm =>
      htracks.exists_checkpointAtTop? hops hframe hlast hbefore hm⟩
  obtain ⟨happlies, hshown⟩ := applyOverlayAtTop_of_checkpoint hwf hc
  refine ⟨htracks.bare_checkpointAtTop? hframe hc, happlies, fun s hs => ⟨?_, hshown s hs⟩⟩
  obtain ⟨frame', className, -, -, -, hat⟩ := of_checkpointAtTop? hc
  rcases snapshot_performAll ops (List.mem_of_find?_eq_some hat) hs with hgiven | hold
  · exact hgiven
  · -- a search finds checkpoints without snapshots
    obtain ⟨messages, hscan⟩ := (fresh config resolver lines).scan_snd
    rw [hscan] at hold
    rw [snapshot_of_mem_announced hold] at hs
    cases hs

/-- Two markers, one before each of two statements. -/
def markersLog (line : String) : List String :=
  ["62.0 APEX_CODE,FINEST",
    "0|METHOD_ENTRY|[1]|1|A.f()",
    "0|HEAP_DUMP|[2]|s1|A||2",
    "0|STATEMENT_EXECUTE|[2]",
    "0|HEAP_DUMP|[" ++ line ++ "]|s2|A||" ++ line,
    "0|STATEMENT_EXECUTE|[" ++ line ++ "]"]

set_option maxRecDepth 100000 in
/-- When the second marker is of another line, an overlay shows its snapshot. -/
theorem showsPassed_markersLog :
    let ops := [.setSnapshot "s2" ⟨[]⟩, .advance, .advance, .advance]
    let r := (fresh {} (fun _ => none) (markersLog "3")).scan.2.performAll ops
    r.ShowsPassed ∧ ∃ c frame, r.checkpointAtTop? = some c ∧ r.state.top? = some frame ∧
      c.id = "s2" ∧ r.applyOverlayAtTop.1 = true := by
  intro ops r
  have hfound : r.checkpointAtTop?.map (fun c => (c.id, c.snapshot.isSome)) = some ("s2", true) ∧
      r.state.top?.map (fun frame => (frame.name, frame.line)) = some ("A.f()", 3) ∧
      (lastMarked? (r.lines.take r.nextIndex)).all
        (fun p => ((announced p.1).find? (·.isAt "A.f()" 3)).isNone) = true := by
    decide +kernel
  obtain ⟨hsnapshot, hplace, hbefore⟩ := hfound
  obtain ⟨hiff, hshown, -⟩ := showsPassed_iff {} (fun _ => none) (markersLog "3") ops
  constructor
  · apply hiff.2
    intro c hc frame before m a htop hlast ha
    rw [htop] at hplace
    obtain ⟨hname, hline⟩ := Prod.mk.inj (Option.some.inj hplace)
    rw [hlast] at hbefore
    rw [hname, hline] at ha
    simp [ha] at hbefore
  · obtain ⟨c, hc, heq⟩ := Option.map_eq_some_iff.1 hsnapshot
    obtain ⟨hid, hsome⟩ := Prod.mk.inj heq
    obtain ⟨frame, -, htop, -⟩ := of_checkpointAtTop? hc
    exact ⟨c, frame, hc, htop, hid, (hshown c frame hc htop).2.1.trans hsome⟩

set_option maxRecDepth 100000 in
/-- When it is of the same line, as in a loop, the first snapshot stands in the way. -/
theorem not_showsPassed_markersLog :
    ¬ ((fresh {} (fun _ => none) (markersLog "2")).scan.2.performAll
      [.advance, .advance, .advance]).ShowsPassed := by
  intro h
  have hfound : ∃ r, r = (fresh {} (fun _ => none) (markersLog "2")).scan.2.performAll
        [.advance, .advance, .advance] ∧ r.checkpointAtTop?.map (·.id) = some "s1" ∧
      (lastMarked? (r.lines.take r.nextIndex)).map (·.2.id) = some "s2" :=
    ⟨_, rfl, by decide +kernel⟩
  obtain ⟨r, hr, hid, hlast⟩ := hfound
  rw [← hr] at h
  obtain ⟨c, hc, hid⟩ := Option.map_eq_some_iff.1 hid
  obtain ⟨before, m, hlast', heq⟩ := h c hc
  rw [hlast', Option.map_some, ← heq, hid] at hlast
  revert hlast
  decide

end Replay

end Retrace
