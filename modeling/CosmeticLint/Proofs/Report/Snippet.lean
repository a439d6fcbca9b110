import CosmeticLint.Proofs.Text.ShownLines
import CosmeticLint.Report.Format
import Mathlib.Data.List.Forall2

/-! The lines in a report for people. A diagnostic is shown with the line in which it starts: the
position that is looked up for its start numbers the lines as they are shown. -/

namespace CosmeticLint.Report

open Lint

/-- Behind the last line that is shown: the end of a text that is empty or ends in a line feed. -/
def BehindLines (source : String) (offset : Nat) : Prop :=
  offset = byteLength source.toList ∧ (source = "" ∨ source.toList.getLast? = some '\n')

/-- The snippet for an offset of a text: nothing behind all lines, and else the line that begins as
many bytes in front of the offset as its column says. -/
inductive SnippetAt (source : String) (offset : Nat) : String → Prop
  | nothing : BehindLines source offset → SnippetAt source offset ""
  | line {place : LineCol} {front rest line : List Char} :
      ¬ BehindLines source offset →
      (LineIndex.ofText source).lineCol? offset = some place →
      source.toList = front ++ rest → byteLength front + place.col = offset →
      ShownFrom rest line →
      SnippetAt source offset
        ("  " ++ toString (place.line + 1) ++ " | " ++ String.ofList line ++ "\n" ++
          "  " ++ spaces (toString (place.line + 1)).length ++ " | " ++ spaces place.col ++ "^\n")

theorem snippetAt_snippet {source : String} {offset : Nat}
    (h : offset ≤ byteLength source.toList) :
    SnippetAt source offset
      (snippet (shownLines source.toList) (placeOf (.ofText source) offset)) := by
  obtain ⟨front, line, tail, hline⟩ := exists_inLine h
  have hplace := hline.lineCol?_eq
  have hbehind : BehindLines source offset ↔ line = [] ∧ tail = [] := by
    rw [hline.empty_iff, BehindLines, String.toList_eq_nil_iff]
  rw [snippet, placeOf, hplace, Option.getD_some]
  rcases hline.shown_cases with ⟨hempty, hnone⟩ | ⟨hempty, shown, hsome, hshown⟩
  · rw [hnone]
    exact .nothing (hbehind.2 hempty)
  · rw [hsome]
    refine .line (fun hend => hempty (hbehind.1 hend)) hplace hline.text_eq ?_ hshown
    exact Nat.add_sub_cancel' hline.start_le

/-- In a verbose report each diagnostic has, under its headline, the snippet for its start. -/
theorem textOfFile_humanVerbose (rule path source : String) (ds : List Diagnostic)
    (h : ∀ d ∈ ds, d.span.start ≤ byteLength source.toList) :
    ∃ snippets : List String,
      List.Forall₂ (fun d s => SnippetAt source d.span.start s) ds snippets ∧
      textOfFile .humanVerbose rule path source ds = String.join (List.zipWith (fun d s =>
        (Entry.ofDiagnostic rule path (.ofText source) d).headline ++ s ++ "\n") ds snippets) := by
  refine ⟨ds.map fun d =>
    snippet (shownLines source.toList) (placeOf (.ofText source) d.span.start), ?_, ?_⟩
  · rw [List.forall₂_map_right_iff, List.forall₂_same]
    intro d hd
    exact snippetAt_snippet (h d hd)
  · rw [List.zipWith_map_right, List.zipWith_self]
    rfl

/-- The second byte of a character on a line that keeps one of two carriage returns, and the end of
a text that ends in a line feed. -/
theorem textOfFile_humanVerbose_returns :
    let source := "a\n\té\r\r\n"
    let ds := [Diagnostic.plain .parseError "m" ⟨4, 5⟩, Diagnostic.plain .parseError "m" ⟨8, 8⟩]
    (∀ d ∈ ds, d.span.start ≤ byteLength source.toList) ∧
      (∃ s₁ s₂, SnippetAt source 4 s₁ ∧ SnippetAt source 8 s₂ ∧
        textOfFile .humanVerbose "r" "p" source ds =
          String.join ["p:2:3\nError: m (r/parseError)\n" ++ s₁ ++ "\n",
            "p:3:1\nError: m (r/parseError)\n" ++ s₂ ++ "\n"]) ∧
      textOfFile .humanVerbose "r" "p" source ds =
        "p:2:3\nError: m (r/parseError)\n  2 | \té\r\n    |   ^\n\n" ++
          "p:3:1\nError: m (r/parseError)\n\n" := by
  intro source ds
  have hstarts : ∀ d ∈ ds, d.span.start ≤ byteLength source.toList := by decide
  have hfirst : (Entry.ofDiagnostic "r" "p" (.ofText source)
      (.plain .parseError "m" ⟨4, 5⟩)).headline = "p:2:3\nError: m (r/parseError)\n" := by
    decide +kernel
  have hsecond : (Entry.ofDiagnostic "r" "p" (.ofText source)
      (.plain .parseError "m" ⟨8, 8⟩)).headline = "p:3:1\nError: m (r/parseError)\n" := by
    decide +kernel
  obtain ⟨snippets, hsnippets, htext⟩ := textOfFile_humanVerbose "r" "p" source ds hstarts
  obtain ⟨s₁, more, h₁, hmore, rfl⟩ := List.forall₂_cons_left_iff.1 hsnippets
  obtain ⟨s₂, rest, h₂, hrest, rfl⟩ := List.forall₂_cons_left_iff.1 hmore
  cases List.forall₂_nil_left_iff.1 hrest
  rw [List.zipWith_cons_cons, List.zipWith_cons_cons, List.zipWith_nil_left, hfirst,
    hsecond] at htext
  exact ⟨hstarts, ⟨s₁, s₂, h₁, h₂, htext⟩, by decide +kernel⟩

end CosmeticLint.Report
