import CosmeticLint.Lint.Check
import CosmeticLint.Proofs.Report.Snippet

/-! The mark in a report for people. It stands as many characters behind the gutter as there are
bytes in front of the place on its line, while the line shows characters. So it is under the place
if these are as many, and too far to the right for each character of more than one byte. -/

namespace CosmeticLint

/-! ### Bytes and characters -/

theorem byteLength_eq_length_iff {text : List Char} :
    byteLength text = text.length ↔ ∀ c ∈ text, c.toNat < 128 := by
  induction text with
  | nil => simp
  | cons c text ih =>
    have hsize : c.utf8Size = 1 ↔ c.toNat < 128 := by
      rw [Char.utf8Size_eq_one_iff, UInt32.le_iff_toNat_le]
      exact Nat.lt_succ_iff.symm
    have hpos := c.utf8Size_pos
    have hle := length_le_byteLength text
    rw [byteLength_cons, List.length_cons, List.forall_mem_cons, ← hsize, ← ih]
    omega

end CosmeticLint

namespace CosmeticLint.Report

open Lint

/-- The snippet for a place of a text, which has `before` in front of it on its line: that line as
it is shown, behind a gutter, and a line with a mark behind `below`. -/
structure MarksPlace (source : String) (offset : Nat) (shown : String)
    (front before after gutter line below : List Char) : Prop where
  text_eq : source.toList = front ++ (before ++ after)
  front_end : front = [] ∨ front.getLast? = some '\n'
  notMem_before : '\n' ∉ before
  offset_eq : offset = byteLength front + byteLength before
  shownFrom : ShownFrom (before ++ after) line
  begins : before <+: line ∨ before = line ++ ['\r']
  shown_eq : shown.toList = gutter ++ line ++ '\n' :: (below ++ ['^', '\n'])
  notMem_gutter : '\n' ∉ gutter
  notMem_below : '\n' ∉ below ∧ '^' ∉ below

/-! ### The two lines of a snippet -/

theorem toList_spaces (n : Nat) : (spaces n).toList = List.replicate n ' ' := String.toList_ofList

/-- What stands in front of a line that is shown with its number. -/
def gutterOf (number : String) : List Char := ("  " ++ number ++ " | ").toList

/-- What stands in front of a mark in a column, under a line with a number. -/
def indentOf (number : String) (col : Nat) : List Char :=
  ("  " ++ spaces number.length ++ " | " ++ spaces col).toList

theorem lineFeed_notMem_gutterOf (n : Nat) : '\n' ∉ gutterOf (toString n) := by
  simpa [gutterOf] using lineFeed_notMem_toString n

theorem notMem_indentOf (number : String) (col : Nat) :
    '\n' ∉ indentOf number col ∧ '^' ∉ indentOf number col := by
  simp [indentOf, toList_spaces]

/-- The mark stands as far behind the gutter as its column says. -/
theorem length_indentOf (number : String) (col : Nat) :
    (indentOf number col).length = (gutterOf number).length + col := by
  simp only [indentOf, gutterOf, String.toList_append, List.length_append, toList_spaces,
    List.length_replicate, String.length_toList]

theorem toList_snippet {lines : List (List Char)} {place : LineCol} {line : List Char}
    (h : lines[place.line]? = some line) :
    (snippet lines place).toList = gutterOf (toString (place.line + 1)) ++ line ++
      '\n' :: (indentOf (toString (place.line + 1)) place.col ++ ['^', '\n']) := by
  simp [snippet, h, gutterOf, indentOf]

theorem exists_marksPlace {source : String} {offset : Nat}
    (hoffset : Span.Boundary source.toList offset) (hend : ¬ BehindLines source offset) :
    ∃ front before after gutter line below,
      MarksPlace source offset
        (snippet (shownLines source.toList) (placeOf (.ofText source) offset))
        front before after gutter line below ∧
      below.length = gutter.length + byteLength before := by
  have hle : offset ≤ byteLength source.toList := by
    obtain ⟨u, v, hcut, rfl⟩ := hoffset
    rw [hcut, byteLength_append]
    exact Nat.le_add_right _ _
  obtain ⟨front, _, tail, hline⟩ := exists_inLine hle
  obtain ⟨before, after, rfl, hoffset⟩ := hline.exists_before hoffset
  have hbefore : '\n' ∉ before := fun h => hline.notMem_line (List.mem_append_left _ h)
  have hplace : placeOf (.ofText source) offset = ⟨front.count '\n', byteLength before⟩ := by
    rw [placeOf, hline.lineCol?_eq, Option.getD_some, hoffset, Nat.add_sub_cancel_left]
  rcases hline.shown_cases with ⟨hempty, -⟩ | ⟨-, line, hsome, hshown⟩
  · rw [hline.empty_iff, String.toList_eq_nil_iff] at hempty
    exact absurd hempty hend
  · rw [List.append_assoc] at hshown
    rw [hplace]
    refine ⟨front, before, after ++ tail, _, line, _,
      ⟨?_, hline.front_end, hbefore, hoffset, hshown, hshown.begins hbefore, toList_snippet hsome,
        lineFeed_notMem_gutterOf _, notMem_indentOf _ _⟩, length_indentOf _ _⟩
    rw [hline.text_eq, List.append_assoc]

/-- In a verbose report the mark of a diagnostic that starts between two characters of a shown line
has as many characters in front of it as the gutter and, in bytes, the part of the line in front of
the diagnostic. It stands under the first character of the diagnostic exactly if all characters
in front of that one are of one byte. -/
theorem textOfFile_mark_under_iff (rule path source : String) (ds : List Diagnostic) :
    ∃ snippetOf : Diagnostic → String,
      textOfFile .humanVerbose rule path source ds = String.join (ds.map fun d =>
        (Entry.ofDiagnostic rule path (.ofText source) d).headline ++ snippetOf d ++ "\n") ∧
      ∀ d ∈ ds, Span.Boundary source.toList d.span.start → ¬ BehindLines source d.span.start →
        ∃ front before after gutter line below,
          MarksPlace source d.span.start (snippetOf d) front before after gutter line below ∧
          below.length = gutter.length + byteLength before ∧
          (below.length = (gutter ++ before).length ↔ ∀ c ∈ before, c.toNat < 128) := by
  refine ⟨fun d => snippet (shownLines source.toList) (placeOf (.ofText source) d.span.start), rfl,
    fun d _ hstart hend => ?_⟩
  obtain ⟨front, before, after, gutter, line, below, hmarks, hlength⟩ :=
    exists_marksPlace hstart hend
  refine ⟨front, before, after, gutter, line, below, hmarks, hlength, ?_⟩
  rw [hlength, List.length_append, Nat.add_left_cancel_iff, byteLength_eq_length_iff]

/-- A character of two bytes in front of a finding moves the mark one character behind it. -/
theorem textOfFile_mark_behind_wide :
    let source := "'é'+'AC_ad'"
    let d := Diagnostic.aboutName .forbiddenId "AC_ad" ⟨5, 12⟩
    check .bundled .full "a.js" source = [d] ∧
      source.toList = "'é'+".toList ++ "'AC_ad'".toList ∧ byteLength "'é'+".toList = d.span.start ∧
      textOfFile .humanVerbose "r" "a.js" source [d] =
        "a.js:1:6\nError: ID 'AC_ad' is forbidden. (r/forbiddenId)\n" ++
          ("  1 | 'é'+" ++ "'AC_ad'\n") ++ ("    |      " ++ "^\n") ++ "\n" ∧
      "    |      ".length = "  1 | 'é'+".length + 1 := by
  decide +kernel

end CosmeticLint.Report
