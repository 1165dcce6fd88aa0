import Retrace.Proofs.Text.Blanks
import Retrace.Proofs.Text.Cuts
import Retrace.Trace.Lines

/-!
# Line ends

A line may end in any number of carriage returns before the line end itself, and the last line may
lack its line end. How each line ends is all that is lost when a log is split: the lines are those
that some choice of ends makes the log of. What stands behind a line end has the same lines in any
log, so a line is counted by the line ends in front of it.

* `IsLine`, `withReturns`, `LogText`: lines, and the logs that are made of them with some ends.
* `linePieces_append`: a line end cuts a log in two.
* `LogText.traceLines`, `exists_logText`: a log has the lines it was made of, and it was made of
  some.
* **`traceLines_eq_iff`**: the lines of a log, how many there are, and how they are counted.
-/

namespace Retrace

/-- What is kept of a line: no line end stands in it, and no carriage return at its end. -/
structure IsLine (line : String) : Prop where
  not_mem : '\n' ∉ line.toList
  last : line.toList.getLast? ≠ some '\r'

/-- A line with carriage returns behind it. -/
def withReturns (line : String) (n : Nat) : List Char :=
  line.toList ++ List.replicate n '\r'

/-- The text is a log of the lines. Every line may have carriage returns behind it and has a line
end then, which the last one may lack unless nothing at all would stand for it. -/
inductive LogText : List String → List Char → Prop
  | nil : LogText [] []
  | last {line : String} (n : Nat) : IsLine line → withReturns line n ≠ [] →
      LogText [line] (withReturns line n)
  | cons {line : String} {lines : List String} {cs : List Char} (n : Nat) : IsLine line →
      LogText lines cs → LogText (line :: lines) (withReturns line n ++ '\n' :: cs)

/-- What stands behind the last line end of a text. -/
def remainder (cs : List Char) : List Char :=
  cs.rtakeWhile (· ≠ '\n')

variable {line : String} {lines : List String} {cs : List Char}

/-! ## Pieces -/

theorem linePieces_of_not_mem (hcs : '\n' ∉ cs) (hne : cs ≠ []) : linePieces cs = [cs] := by
  rw [linePieces, Text.pieces_of_not_mem hcs]
  exact if_neg (by simpa using hne)

/-- **A line end cuts a log in two**: the pieces in front of it are whole lines. -/
theorem linePieces_append (cs rest : List Char) :
    linePieces (cs ++ '\n' :: rest) = Text.pieces '\n' cs ++ linePieces rest := by
  have hne : Text.pieces '\n' rest ≠ [] := Text.pieces_ne_nil '\n' rest
  rw [linePieces, linePieces, Text.pieces_append, List.getLast?_append_of_ne_nil _ hne]
  split
  · exact List.dropLast_append_of_ne_nil hne
  · rfl

theorem traceLines_append (before after : String) :
    traceLines (before ++ "\n" ++ after) = traceLines (before ++ "\n") ++ traceLines after := by
  have hchars : (before ++ "\n" ++ after).toList = before.toList ++ '\n' :: after.toList := by simp
  have hbefore : (before ++ "\n").toList = before.toList ++ '\n' :: [] := by simp
  have hnil : linePieces [] = [] := rfl
  rw [traceLines, traceLines, traceLines, hchars, hbefore, linePieces_append, linePieces_append,
    hnil, List.append_nil, List.map_append]

/-! ## Logs made of lines -/

theorem IsLine.not_mem_withReturns (h : IsLine line) (n : Nat) : '\n' ∉ withReturns line n := by
  simpa [withReturns] using h.not_mem

theorem IsLine.dropEndWhile_withReturns (h : IsLine line) (n : Nat) :
    String.ofList (Text.dropEndWhile (· = '\r') (withReturns line n)) = line := by
  have hline : Text.dropEndWhile (· = '\r') line.toList = line.toList := by
    refine Text.dropEndWhile_eq_self_iff.2 fun c hc => decide_eq_false fun he => h.last ?_
    rw [← he]
    exact hc
  rw [withReturns, Text.dropEndWhile_append (fun c hc => by simpa using List.eq_of_mem_replicate hc),
    hline, String.ofList_toList]

/-- **A log has the lines it was made of**, whatever their ends are. -/
theorem LogText.traceLines (h : LogText lines cs) : traceLines (String.ofList cs) = lines := by
  rw [Retrace.traceLines, String.toList_ofList]
  induction h with
  | nil => rfl
  | last n hline hne =>
    rw [linePieces_of_not_mem (hline.not_mem_withReturns n) hne, List.map_singleton,
      hline.dropEndWhile_withReturns]
  | cons n hline _ ih =>
    rw [linePieces_append, Text.pieces_of_not_mem (hline.not_mem_withReturns n),
      List.singleton_append, List.map_cons, hline.dropEndWhile_withReturns, ih]

theorem exists_withReturns (h : '\n' ∉ cs) : ∃ line n, IsLine line ∧ cs = withReturns line n := by
  obtain ⟨w, hcs, hw⟩ := Text.exists_dropEndWhile (· = '\r') cs
  refine ⟨String.ofList (Text.dropEndWhile (· = '\r') cs), w.length, ⟨?_, ?_⟩, ?_⟩
  · rw [String.toList_ofList]
    exact fun hmem => h (hcs ▸ List.mem_append_left w hmem)
  · rw [String.toList_ofList]
    intro hlast
    simpa using Text.getLast?_dropEndWhile (· = '\r') cs '\r' hlast
  · rw [withReturns, String.toList_ofList,
      ← List.eq_replicate_of_mem fun c hc => by simpa using hw c hc]
    exact hcs

/-- **Every text is a log of some lines.** -/
theorem exists_logText (cs : List Char) : ∃ lines, LogText lines cs := by
  by_cases hmem : '\n' ∈ cs
  · obtain ⟨before, rest, rfl, hbefore⟩ := List.eq_append_cons_of_mem hmem
    obtain ⟨line, n, hline, rfl⟩ := exists_withReturns hbefore
    obtain ⟨lines, hlines⟩ := exists_logText rest
    exact ⟨line :: lines, .cons n hline hlines⟩
  · obtain ⟨line, n, hline, rfl⟩ := exists_withReturns hmem
    by_cases hne : withReturns line n = []
    · exact ⟨[], hne ▸ .nil⟩
    · exact ⟨[line], .last n hline hne⟩
termination_by cs.length

theorem logText_traceLines (contents : String) :
    LogText (traceLines contents) contents.toList := by
  obtain ⟨lines, hlines⟩ := exists_logText contents.toList
  have hread := hlines.traceLines
  rw [String.ofList_toList] at hread
  rw [hread]
  exact hlines

theorem LogText.isLine (h : LogText lines cs) : ∀ line ∈ lines, IsLine line := by
  induction h with
  | nil => simp
  | last n hline _ => simpa using hline
  | cons n hline _ ih => exact List.forall_mem_cons.2 ⟨hline, ih⟩

/-! ## Counting -/

theorem remainder_of_not_mem (h : '\n' ∉ cs) : remainder cs = cs :=
  List.rtakeWhile_eq_self_iff.2 fun c hc => by
    simpa using fun he : c = '\n' => h (he ▸ hc)

theorem remainder_append (cs rest : List Char) : remainder (cs ++ '\n' :: rest) = remainder rest := by
  have hrev : (cs ++ '\n' :: rest).reverse = rest.reverse ++ '\n' :: cs.reverse := by simp
  rw [remainder, remainder, List.rtakeWhile, List.rtakeWhile, hrev, List.takeWhile_append]
  split
  · next h => rw [(List.takeWhile_prefix _).eq_of_length h]; simp
  · rfl

/-- **There is a line for each line end, and one for what stands behind the last.** -/
theorem LogText.length_eq (h : LogText lines cs) :
    lines.length = cs.count '\n' + if remainder cs = [] then 0 else 1 := by
  induction h with
  | nil => rfl
  | last n hline hne =>
    have hmem := hline.not_mem_withReturns n
    rw [remainder_of_not_mem hmem, if_neg hne, List.count_eq_zero_of_not_mem hmem]
    rfl
  | cons n hline _ ih =>
    rw [remainder_append, List.length_cons, ih, List.count_append, List.count_cons_self,
      List.count_eq_zero_of_not_mem (hline.not_mem_withReturns n)]
    omega

/-- **The lines of a log** are those that some choice of ends makes it of. They are without line
ends and without carriage returns at their ends; there is one for each line end of the log, and one
for what stands behind the last. A text behind a line end has the same lines in any log, and they
are counted on from the line ends in front of it. -/
theorem traceLines_eq_iff (contents before after : String) (lines : List String) :
    (traceLines contents = lines ↔ LogText lines contents.toList) ∧
    (∀ line ∈ traceLines contents, IsLine line) ∧
    (traceLines contents).length =
      contents.toList.count '\n' + (if remainder contents.toList = [] then 0 else 1) ∧
    traceLines (before ++ "\n" ++ after) = traceLines (before ++ "\n") ++ traceLines after ∧
    (traceLines (before ++ "\n")).length = before.toList.count '\n' + 1 := by
  have count : ∀ text : String, (traceLines text).length =
      text.toList.count '\n' + if remainder text.toList = [] then 0 else 1 :=
    fun text => (logText_traceLines text).length_eq
  refine ⟨⟨fun h => h ▸ logText_traceLines contents, fun h => ?_⟩,
    (logText_traceLines contents).isLine, count contents, traceLines_append before after, ?_⟩
  · rw [← h.traceLines, String.ofList_toList]
  · rw [count]
    simp [remainder, List.rtakeWhile]

/-- Ends of all kinds, an empty line among them, a carriage return inside a line and no end behind
the last line. -/
theorem traceLines_mixedEnds :
    let contents := "a|b\r\r\n\n\rc\n\r"
    traceLines contents = ["a|b", "", "\rc", ""] ∧ "\rc" ∈ traceLines contents ∧ IsLine "\rc" := by
  intro contents
  have h : "\rc" ∈ traceLines contents := by decide
  exact ⟨by decide, h, (traceLines_eq_iff contents "" "" []).2.1 _ h⟩

end Retrace
