import Retrace.Proofs.Replay.Markers
import Retrace.Proofs.Replay.Passages

/-!
# Two readers of markers

The markers of a log are read twice. A search of the whole log takes a line for a marker when the
kind of markers stands in it anywhere between two bars; a replay takes it for one when the second
field is of that kind. Every marker holds its kind between bars. But so may the text of debug
output, and then a search finds a checkpoint where a replay passes none.

* `seemsMarker`, `isMarker`: the two tests.
* `checkpointsOf`, `complaintsAbout`: what is read off the lines that pass a test.
* `Replay.scan_fresh`, `Replay.read_passagesAlong`: what the two readers read.
* `Replay.ReadsAlike`, **`Replay.readsAlike_iff`**: when they read the same.
-/

namespace Retrace

/-- Whether a search takes the line for a marker. -/
def seemsMarker (line : String) : Bool := Text.contains line "|HEAP_DUMP|"

/-- Whether a replay takes the line for a marker. -/
def isMarker (line : String) : Bool :=
  match lineFields line with
  | _ :: kind :: _ :: _ => kind = markerKind
  | _ => false

/-- The checkpoints of lines with enough fields. -/
def checkpointsOf (ls : List (String × Nat)) : List Checkpoint :=
  ls.filterMap fun l => Checkpoint.ofFields? (lineFields l.1)

/-- The complaints about lines with too few fields. -/
def complaintsAbout (ls : List (String × Nat)) : List Message :=
  (ls.filter fun l => (Checkpoint.ofFields? (lineFields l.1)).isNone).map fun l =>
    { channel := .stderr, content := malformedLine (l.2 + 1) l.1 }

/-! ## The two tests -/

theorem markedBy?_eq (line : String) :
    markedBy? line = if isMarker line then Checkpoint.ofFields? (lineFields line) else none := by
  unfold markedBy? isMarker
  rcases lineFields line with _ | ⟨a, _ | ⟨kind, _ | ⟨b, rest⟩⟩⟩ <;> simp

theorem seemsMarker_of_isMarker {line : String} (h : isMarker line = true) :
    seemsMarker line = true := by
  unfold isMarker at h
  split at h
  · next a kind b rest hfields =>
    have hcontains := contains_of_fields hfields
    rwa [of_decide_eq_true h] at hcontains
  · cases h

theorem length_checkpointsOf_add (ls : List (String × Nat)) :
    (checkpointsOf ls).length + (complaintsAbout ls).length = ls.length := by
  induction ls with
  | nil => rfl
  | cons l ls ih =>
    unfold checkpointsOf complaintsAbout at ih ⊢
    cases h : Checkpoint.ofFields? (lineFields l.1) <;> simp [h] at ih ⊢ <;> omega

/-- Two tests, one of which implies the other, read the same off lines when they take the same
lines. -/
theorem reads_eq_iff {p q : String → Bool} (hpq : ∀ line, p line = true → q line = true)
    (ls : List (String × Nat)) :
    (checkpointsOf (ls.filter fun l => q l.1) = checkpointsOf (ls.filter fun l => p l.1) ∧
        complaintsAbout (ls.filter fun l => q l.1) = complaintsAbout (ls.filter fun l => p l.1)) ↔
      ∀ l ∈ ls, q l.1 = true → p l.1 = true := by
  have hsub : (ls.filter fun l => p l.1) = (ls.filter fun l => q l.1).filter fun l => p l.1 := by
    rw [List.filter_filter]
    refine List.filter_congr fun l _ => ?_
    cases hp : p l.1
    · simp
    · simp [hpq _ hp]
  constructor
  · rintro ⟨hfound, hcomplained⟩ l hl hq
    have hlength : ((ls.filter fun l => q l.1).filter fun l => p l.1).length =
        (ls.filter fun l => q l.1).length := by
      rw [← hsub, ← length_checkpointsOf_add, ← length_checkpointsOf_add, hfound, hcomplained]
    exact List.filter_eq_self.1 (List.filter_sublist.eq_of_length hlength) l
      (List.mem_filter.2 ⟨hl, hq⟩)
  · intro h
    have hsame : (ls.filter fun l => q l.1) = ls.filter fun l => p l.1 := by
      refine List.filter_congr fun l hl => ?_
      rw [Bool.eq_iff_iff]
      exact ⟨h l hl, hpq l.1⟩
    rw [hsame]
    exact ⟨rfl, rfl⟩

/-! ## Searching -/

namespace Replay

theorem messages_scan (r : Replay) :
    r.scan.2.messages =
      r.messages ++ complaintsAbout (r.lines.zipIdx.filter fun l => seemsMarker l.1) := by
  have key : ∀ (ls : List (String × Nat)) (q : Replay),
      (ls.foldl (fun q e => q.scanStep e.1 e.2) q).messages =
        q.messages ++ complaintsAbout (ls.filter fun l => seemsMarker l.1) := by
    intro ls
    induction ls with
    | nil =>
      intro q
      simp [complaintsAbout]
    | cons l ls ih =>
      intro q
      rw [List.foldl_cons, ih]
      unfold scanStep scanLine complaintsAbout seemsMarker
      cases hs : Text.contains l.1 "|HEAP_DUMP|" <;>
        cases hc : Checkpoint.ofFields? (lineFields l.1) <;> simp [hs, hc, say]
  exact key r.lines.zipIdx { r with checkpoints := [] }

/-- **What a search reads**: the lines that seem to be markers, empty ones left out. -/
theorem scan_fresh (config : Config) (resolver : Resolver) (lines : List String) :
    let ws := (written lines 0 lines.length).filter fun l => seemsMarker l.1
    (fresh config resolver lines).scan.2.checkpoints = checkpointsOf ws ∧
      (fresh config resolver lines).scan.2.messages = complaintsAbout ws := by
  intro ws
  have hall : (lines.zipIdx.filter fun l => seemsMarker l.1) = ws := by
    have hempty : seemsMarker "" = false := by decide
    show _ = ((lines.zipIdx.take lines.length).filter _).filter _
    rw [List.take_of_length_le (by simp), List.filter_filter]
    refine List.filter_congr fun l _ => ?_
    by_cases he : l.1 = ""
    · simp [he, hempty]
    · simp [he]
  constructor
  · obtain ⟨messages, h⟩ := (fresh config resolver lines).scan_snd
    have hfound : ∀ l : String × Nat, (scanLine l.1).checkpoint? =
        if seemsMarker l.1 then Checkpoint.ofFields? (lineFields l.1) else none := by
      intro l
      unfold scanLine seemsMarker
      cases Text.contains l.1 "|HEAP_DUMP|" <;>
        cases Checkpoint.ofFields? (lineFields l.1) <;> rfl
    rw [h, ← hall, checkpointsOf, List.filterMap_filter]
    show announced lines = _
    simp only [← hfound]
    rw [announced]
    conv_lhs => rw [← List.zipIdx_map_fst 0 lines]
    rw [List.filterMap_map]
    rfl
  · rw [messages_scan, ← hall]
    rfl

end Replay

/-! ## Replaying -/

/-- The checkpoint that the replay takes note of: a marker is noted behind the line, though the
replay has forgotten those before. -/
def Passage.noted? (p : Passage) : Option Checkpoint :=
  if (p.replay.forgetMarker.step p.line).2.lastMarker.isSome then
    Checkpoint.ofFields? (lineFields p.line)
  else none

/-- The complaints about the line. -/
def Passage.complaints (p : Passage) : List Message :=
  (p.after.messages.drop p.replay.messages.length).filter (·.channel = .stderr)

namespace Replay

theorem noted?_eq (p : Passage) :
    p.noted? = if p.replay.current = none then none else markedBy? p.line := by
  rw [Passage.noted?, lastMarker_step]
  have hcurrent : p.replay.forgetMarker.current = p.replay.current := rfl
  have hforgotten : p.replay.forgetMarker.lastMarker = none := rfl
  rw [hcurrent, hforgotten]
  cases hc : p.replay.current with
  | none => rfl
  | some e =>
    rw [markedBy?_eq]
    cases isMarker p.line <;> cases Checkpoint.ofFields? (lineFields p.line) <;> simp

theorem messages_step (r : Replay) (line : String) : ∃ others : List Message,
    (r.step line).2.messages = (r.classify line).2.messages ++ others ∧
      others.filter (·.channel = .stderr) = [] := by
  have hecho : ∃ others : List Message,
      ((r.classify line).2.echo line (r.classify line).1).messages =
        (r.classify line).2.messages ++ others ∧ others.filter (·.channel = .stderr) = [] := by
    unfold echo
    split
    · exact ⟨_, rfl, rfl⟩
    · exact ⟨[], (List.append_nil _).symm, rfl⟩
  have hhandle : ∀ (q : Replay) (e : Event), ∃ others : List Message,
      (q.handle e).messages = q.messages ++ others ∧
        others.filter (·.channel = .stderr) = [] := by
    intro q e
    cases e with
    | debug n text => exact ⟨_, rfl, rfl⟩
    | finish signature =>
      refine ⟨[], ?_, rfl⟩
      simp only [handle, handleFinish]
      repeat' split
      all_goals exact (List.append_nil _).symm
    | _ => exact ⟨[], (List.append_nil _).symm, rfl⟩
  obtain ⟨echoed, hechoed, hquiet⟩ := hecho
  obtain ⟨said, hsaid, hquiet'⟩ :=
    hhandle ((r.classify line).2.echo line (r.classify line).1) (r.classify line).1
  refine ⟨echoed ++ said, ?_, by rw [List.filter_append, hquiet, hquiet']; rfl⟩
  rw [← List.append_assoc, ← hechoed]
  exact hsaid

theorem messages_classify (r : Replay) (line : String) :
    (r.moveOn.classify line).2.messages = r.messages ++
      if r.current = none then []
      else complaintsAbout ([(line, r.nextIndex)].filter fun l => isMarker l.1) := by
  have hscript : (r.moveOn.noteScript line).messages = r.messages ∧
      (r.moveOn.noteScript line).nextIndex = r.nextIndex + 1 := by
    unfold noteScript
    split <;> exact ⟨rfl, rfl⟩
  have hmarker : ∀ q : Replay, (q.noteMarker line).messages = q.messages ++
      if isMarker line ∧ Checkpoint.ofFields? (lineFields line) = none then
        [{ channel := .stderr, content := malformedLine q.nextIndex line }]
      else [] := by
    intro q
    unfold noteMarker isMarker
    rcases lineFields line with _ | ⟨a, _ | ⟨kind, _ | ⟨b, rest⟩⟩⟩
    · simp
    · simp
    · simp
    · by_cases hkind : kind = markerKind
      · cases hc : Checkpoint.ofFields? (a :: kind :: b :: rest) <;> simp_all [say]
      · simp [hkind]
  unfold classify
  cases hc : r.current with
  | none =>
    have hmoved : r.moveOn.current = none := hc
    simp [hmoved]
    rfl
  | some e =>
    have hmoved : r.moveOn.current = some e := hc
    rw [hmoved]
    show ((r.moveOn.noteScript line).noteMarker line).messages = _
    rw [hmarker, hscript.1, hscript.2]
    unfold complaintsAbout
    cases hm : isMarker line <;> cases ho : Checkpoint.ofFields? (lineFields line) <;>
      simp [hm, ho]

theorem complaints_eq (r : Replay) (line : String) :
    (⟨r.moveOn, line⟩ : Passage).complaints = if r.current = none then []
      else complaintsAbout ([(line, r.nextIndex)].filter fun l => isMarker l.1) := by
  obtain ⟨others, hmessages, hquiet⟩ := r.moveOn.messages_step line
  have hcomplaints : ∀ ls : List (String × Nat),
      (complaintsAbout ls).filter (·.channel = .stderr) = complaintsAbout ls := by
    intro ls
    refine List.filter_eq_self.2 fun m hm => ?_
    obtain ⟨l, -, rfl⟩ := List.mem_map.1 hm
    rfl
  rw [Passage.complaints, Passage.after, hmessages, messages_classify, List.append_assoc]
  show ((r.messages ++ _).drop r.messages.length).filter _ = _
  rw [List.drop_left, List.filter_append, hquiet, List.append_nil]
  split
  · rfl
  · exact hcomplaints _

theorem complaintsAbout_eq_flatMap (ls : List (String × Nat)) :
    complaintsAbout (ls.filter fun l => isMarker l.1) =
      ls.flatMap fun l => complaintsAbout ([l].filter fun l => isMarker l.1) := by
  induction ls with
  | nil => rfl
  | cons l ls ih =>
    rw [List.flatMap_cons, ← ih, complaintsAbout, complaintsAbout, complaintsAbout,
      ← List.map_append, ← List.filter_append, ← List.filter_append]
    rfl

/-- **What a replay reads**: the markers behind the first line. -/
theorem read_passagesAlong (config : Config) (resolver : Resolver) (lines : List String)
    (ops : List Operation) :
    let r := fresh config resolver lines
    let ws := (written lines 0 (r.performAll ops).nextIndex).tail.filter fun l => isMarker l.1
    (passagesAlong ops r).filterMap Passage.noted? = checkpointsOf ws ∧
      (passagesAlong ops r).flatMap Passage.complaints = complaintsAbout ws := by
  intro r ws
  constructor
  · have hnoted := flatMap_passagesAlong config resolver lines ops
      (f := fun l => (markedBy? l.1).toList) (g := fun p => p.noted?.toList) fun q line => by
        rw [noted?_eq]
        show (if q.current = none then none else markedBy? line).toList = _
        split <;> rfl
    rw [List.filterMap_eq_flatMap_toList, hnoted, ← List.filterMap_eq_flatMap_toList,
      checkpointsOf, List.filterMap_filter]
    simp only [markedBy?_eq]
    rfl
  · rw [complaintsAbout_eq_flatMap]
    exact flatMap_passagesAlong config resolver lines ops complaints_eq

/-! ## Agreement -/

/-- A search of the lines that a run has gone through, but for the first one, finds the checkpoints
that the run has noted, and complains as the run has done. -/
def ReadsAlike (r : Replay) (ops : List Operation) : Prop :=
  let ls := (written r.lines 0 (r.performAll ops).nextIndex).tail.filter fun l => seemsMarker l.1
  checkpointsOf ls = (passagesAlong ops r).filterMap Passage.noted? ∧
    complaintsAbout ls = (passagesAlong ops r).flatMap Passage.complaints

/-- **When both readers of markers agree.** A search reads the lines that hold the kind of markers
between bars, and a replay those behind the first one whose second field is of that kind. They read
the same when behind the first line only such fields bring the kind between bars. -/
theorem readsAlike_iff (config : Config) (resolver : Resolver) (lines : List String)
    (ops : List Operation) :
    let r := fresh config resolver lines
    let q := r.performAll ops
    let ps := passagesAlong ops r
    let all := written lines 0 lines.length
    let later := (written lines 0 q.nextIndex).tail
    (r.scan.2.checkpoints = checkpointsOf (all.filter fun l => seemsMarker l.1) ∧
      r.scan.2.messages = complaintsAbout (all.filter fun l => seemsMarker l.1)) ∧
    (ps.filterMap Passage.noted? = checkpointsOf (later.filter fun l => isMarker l.1) ∧
      ps.flatMap Passage.complaints = complaintsAbout (later.filter fun l => isMarker l.1)) ∧
    (∀ p ∈ ps, p.after.lastMarker =
      (p.noted?.map fun c => (c.className, c.line)).or p.replay.lastMarker) ∧
    (q.position = some lines.length → later = all.tail) ∧
    (r.ReadsAlike ops ↔ ∀ l ∈ later, seemsMarker l.1 = true → isMarker l.1 = true) := by
  intro r q ps all later
  obtain ⟨hnoted, hcomplained⟩ := read_passagesAlong config resolver lines ops
  refine ⟨scan_fresh config resolver lines, ⟨hnoted, hcomplained⟩, fun p _ => ?_, fun hend => ?_, ?_⟩
  · rw [Passage.after, lastMarker_step, noted?_eq]
    cases p.replay.current <;> rfl
  · have hnext : q.nextIndex = lines.length + 1 := by
      rw [nextIndex, hend]
      rfl
    show (written lines 0 q.nextIndex).tail = _
    rw [hnext, written_of_length_le_right (Nat.le_succ _)]
  · show checkpointsOf (later.filter fun l => seemsMarker l.1) = ps.filterMap Passage.noted? ∧
      complaintsAbout (later.filter fun l => seemsMarker l.1) =
        ps.flatMap Passage.complaints ↔ _
    rw [hnoted, hcomplained]
    exact reads_eq_iff (p := isMarker) (q := seemsMarker) (fun _ h => seemsMarker_of_isMarker h)
      later

set_option maxRecDepth 100000 in
/-- In a log whose only other lines are calls and statements they agree. -/
theorem readsAlike_markersLog :
    let ops := [.advance, .advance, .advance, .advance]
    let r := fresh {} (fun _ => none) (markersLog "3")
    (r.performAll ops).position = some (markersLog "3").length ∧ r.ReadsAlike ops ∧
      (written (markersLog "3") 0 (r.performAll ops).nextIndex).tail =
        (written (markersLog "3") 0 (markersLog "3").length).tail := by
  intro ops r
  obtain ⟨-, -, -, hall, hiff⟩ := readsAlike_iff {} (fun _ => none) (markersLog "3") ops
  have hend : (r.performAll ops).position = some (markersLog "3").length := by decide +kernel
  refine ⟨hend, hiff.2 ?_, hall hend⟩
  decide +kernel

/-- A log in which debug output quotes a marker. -/
def quotingLog : List String :=
  ["62.0 APEX_CODE,FINEST",
    "0|METHOD_ENTRY|[1]|1|A.f()",
    "0|USER_DEBUG|[2]|DEBUG|x|HEAP_DUMP|s|A||2",
    "0|STATEMENT_EXECUTE|[2]"]

set_option maxRecDepth 100000 in
/-- A search takes the output for a marker, and a replay does not. -/
theorem not_readsAlike_quotingLog :
    ¬ (fresh {} (fun _ => none) quotingLog).ReadsAlike [.advance, .advance, .advance] := by
  intro h
  have hlength := congrArg List.length h.1
  revert hlength
  decide +kernel

end Replay

end Retrace
