import Retrace.Breakpoint
import Retrace.Proofs.Text.Blanks
import Retrace.Proofs.Text.Counts
import Retrace.Proofs.Text.Cuts

/-!
# Reading breakpoints back

A breakpoint is written with one colon of its own, the last one. No colon and no blank stands in a
numeral, and a file that does not begin with a blank loses nothing to trimming, so what is printed
is read back. What is read was trimmed before it was cut, so its file does not begin with a blank
either.

* `Breakpoint.Valid`: the breakpoints that can be written.
* `Breakpoint.Spells`: the texts that stand for a breakpoint.
* `Breakpoint.Faulty`: the texts that stand for none.
* `Breakpoint.parse_eq_ok_iff`: what is read from a trimmed text with a last colon.
* **`Breakpoint.parse_text_iff`**: what is printed is read back, nothing else is read than what can
  be printed, and what makes a text unreadable.
-/

namespace Retrace.Breakpoint

/-- The file does not begin with a blank, and the line is a count from one on. -/
structure Valid (b : Breakpoint) : Prop where
  file_ne_empty : b.file ≠ ""
  file_head : ∀ c ∈ b.file.toList.head?, Text.isBlank c = false
  one_le_line : 1 ≤ b.line
  line_le : b.line ≤ Text.maxCount

/-- The text is the file, a colon and a numeral of the line, with blanks around them. -/
def Spells (s : String) (b : Breakpoint) : Prop :=
  ∃ w number w', Text.Blank w ∧ Text.Numeral number b.line ∧ Text.Blank w' ∧
    s.toList = w ++ (b.file.toList ++ ':' :: number ++ w')

/-- The trimmed text has no colon, nothing before the last colon, or behind it no numeral of a count
from one on. -/
def Faulty (s : String) : Prop :=
  ':' ∉ Text.trimChars s.toList ∨
    ∃ file number, Text.trimChars s.toList = file ++ ':' :: number ∧ ':' ∉ number ∧
      (file = [] ∨ ∀ n, Text.Numeral number n → ¬ (1 ≤ n ∧ n ≤ Text.maxCount))

variable {s : String} {b : Breakpoint} {file number : List Char}

theorem not_colon_mem_numeral {n : Nat} (h : Text.Numeral number n) : ':' ∉ number := by
  intro hc
  obtain hdigit | hplus := h.isDigit_or_plus ':' hc
  · exact absurd hdigit (by decide)
  · exact absurd hplus (by decide)

/-! ## Trimmed texts -/

theorem parse_of_not_mem (h : ':' ∉ Text.trimChars s.toList) : parse s = .error (.noColon s) := by
  rw [parse, Text.cutLast_of_not_mem h]

/-- **What is read from a text with a last colon**: the file before it, and the count whose numeral
stands behind it. -/
theorem parse_eq_ok_iff (ht : Text.trimChars s.toList = file ++ ':' :: number)
    (hlast : ':' ∉ number) : parse s = .ok b ↔
      file = b.file.toList ∧ file ≠ [] ∧ Text.Numeral number b.line ∧ 1 ≤ b.line ∧
        b.line ≤ Text.maxCount := by
  rw [parse, ht, Text.cutLast_append hlast]
  dsimp only
  by_cases hfile : file = []
  · simp [hfile]
  rw [if_neg (by simpa using hfile)]
  -- the readers of the line and of the breakpoint agree but for a line of zero
  have hread : ∀ n, Text.Numeral number n ∧ n ≤ Text.maxCount ↔
      Text.readCountChars number = .ok n := fun n => Text.readCountChars_eq_ok_iff.symm
  constructor
  · intro h
    split at h
    · cases h
    · cases h
    · next n hzero hn =>
      obtain rfl := Except.ok.inj h
      obtain ⟨hnumeral, hle⟩ := (hread n).2 hn
      exact ⟨String.toList_ofList.symm, hfile, hnumeral,
        Nat.one_le_iff_ne_zero.2 hzero, hle⟩
  · rintro ⟨rfl, -, hnumeral, hone, hle⟩
    rw [(hread _).1 ⟨hnumeral, hle⟩]
    split
    · next he => cases he
    · next he =>
      rw [Except.ok.inj he] at hone
      exact absurd hone (by decide)
    · next n _ hn =>
      obtain rfl := Except.ok.inj hn
      rw [String.ofList_toList]

theorem exists_of_parse (h : parse s = .ok b) :
    ∃ number, Text.trimChars s.toList = b.file.toList ++ ':' :: number ∧ ':' ∉ number := by
  by_cases hcolon : ':' ∈ Text.trimChars s.toList
  · obtain ⟨file, number, ht, hlast⟩ := Text.exists_append_last hcolon
    obtain ⟨rfl, -⟩ := (parse_eq_ok_iff ht hlast).1 h
    exact ⟨number, ht, hlast⟩
  · rw [parse_of_not_mem hcolon] at h
    cases h

/-! ## Printing and reading -/

theorem Valid.unpadded (hb : b.Valid) (h : Text.Numeral number b.line) :
    Text.Unpadded (b.file.toList ++ ':' :: number) := by
  obtain ⟨c, cs, hfile⟩ : ∃ c cs, b.file.toList = c :: cs :=
    List.exists_cons_of_ne_nil (by simpa using hb.file_ne_empty)
  obtain ⟨digits, d, rfl⟩ : ∃ digits d, number = digits ++ [d] :=
    ⟨_, _, (List.dropLast_append_getLast h.ne_nil).symm⟩
  have hc : Text.isBlank c = false := hb.file_head c (by rw [hfile]; rfl)
  have hd : Text.isBlank d = false := h.isBlank_eq_false d (by simp)
  have := Text.Unpadded.enclosed hc hd (cs ++ ':' :: digits)
  simpa [hfile] using this

theorem Valid.parse_of_spells (hb : b.Valid) (hs : b.Spells s) : parse s = .ok b := by
  obtain ⟨w, number, w', hw, hnumber, hw', hchars⟩ := hs
  have ht : Text.trimChars s.toList = b.file.toList ++ ':' :: number := by
    rw [hchars, Text.trimChars_append hw hw', (hb.unpadded hnumber).trimChars]
  exact (parse_eq_ok_iff ht (not_colon_mem_numeral hnumber)).2
    ⟨rfl, by simpa using hb.file_ne_empty, hnumber, hb.one_le_line, hb.line_le⟩

theorem valid_of_parse (h : parse s = .ok b) : b.Valid := by
  obtain ⟨number, ht, hlast⟩ := exists_of_parse h
  obtain ⟨-, hfile, -, hone, hle⟩ := (parse_eq_ok_iff ht hlast).1 h
  refine ⟨by simpa using hfile, fun c hc => ?_, hone, hle⟩
  have hhead := (Text.unpadded_trimChars s.toList).head
  rw [ht, List.head?_append_of_ne_nil _ hfile] at hhead
  exact hhead c hc

theorem spells_of_parse (h : parse s = .ok b) : b.Spells s := by
  obtain ⟨number, ht, hlast⟩ := exists_of_parse h
  obtain ⟨-, -, hnumber, -, -⟩ := (parse_eq_ok_iff ht hlast).1 h
  obtain ⟨w, w', hw, hw', hchars⟩ := Text.exists_trimChars s.toList
  rw [ht] at hchars
  exact ⟨w, number, w', hw, hnumber, hw', hchars⟩

theorem spells_text (b : Breakpoint) : b.Spells b.text :=
  ⟨[], (toString b.line).toList, [], by simp [Text.Blank], Text.numeral_toString b.line,
    by simp [Text.Blank], by simp [text]⟩

theorem faulty_iff : Faulty s ↔ ∃ e, parse s = .error e := by
  constructor
  · intro h
    cases hread : parse s with
    | error e => exact ⟨e, rfl⟩
    | ok b =>
      obtain ⟨number', ht', hlast'⟩ := exists_of_parse hread
      obtain hcolon | ⟨file, number, ht, hlast, hfault⟩ := h
      · exact absurd (by simp [ht']) hcolon
      · obtain ⟨-, hfile, hnumber, hcount⟩ := (parse_eq_ok_iff ht hlast).1 hread
        exact absurd hcount ((hfault.resolve_left hfile) b.line hnumber)
  · rintro ⟨e, he⟩
    by_cases hcolon : ':' ∈ Text.trimChars s.toList
    · obtain ⟨file, number, ht, hlast⟩ := Text.exists_append_last hcolon
      refine .inr ⟨file, number, ht, hlast, or_iff_not_imp_left.2 fun hfile n hnumber hcount => ?_⟩
      have hread : parse s = .ok ⟨String.ofList file, n⟩ :=
        (parse_eq_ok_iff ht hlast).2 ⟨String.toList_ofList.symm, hfile, hnumber, hcount⟩
      rw [hread] at he
      cases he
    · exact .inl hcolon

/-- **Printing and reading.** A breakpoint is read back from its text exactly when it can be
written. A text is read as a breakpoint exactly when this can be written and the text stands for it,
and then printing and reading once more changes nothing. A text is refused exactly when it is
faulty. -/
theorem parse_text_iff (s : String) (b : Breakpoint) :
    (parse b.text = .ok b ↔ b.Valid) ∧
    (parse s = .ok b ↔ b.Valid ∧ b.Spells s) ∧
    (parse s = .ok b → parse b.text = .ok b) ∧
    ((∃ e, parse s = .error e) ↔ Faulty s) := by
  have back : b.Valid → parse b.text = .ok b := fun hb => hb.parse_of_spells (spells_text b)
  refine ⟨⟨valid_of_parse, back⟩, ⟨fun h => ⟨valid_of_parse h, spells_of_parse h⟩, ?_⟩,
    fun h => back (valid_of_parse h), faulty_iff.symm⟩
  rintro ⟨hb, hs⟩
  exact hb.parse_of_spells hs

/-- The file holds a colon of its own, and the line is written with a sign and a zero. -/
theorem parse_text_padded :
    let b : Breakpoint := ⟨"C:/src/Foo.cls", 7⟩
    parse " C:/src/Foo.cls:+07\t" = .ok b ∧ parse b.text = .ok b := by
  intro b
  have h : parse " C:/src/Foo.cls:+07\t" = .ok b := by decide
  exact ⟨h, (parse_text_iff _ b).2.2.1 h⟩

end Retrace.Breakpoint
