import CosmeticLint.Proofs.FilterList.Kinds
import Mathlib.Data.List.Forall2

/-! Filter lists line by line. A list that is put behind another adds its selectors to each bucket,
and it makes no difference which of the lines end in a carriage return and a line feed and which in
a line feed alone. -/

namespace CosmeticLint.FilterList

/-! ### Lists behind each other -/

theorem hidingSelectors_append (a b : String) :
    hidingSelectors (a ++ "\n" ++ b) = hidingSelectors a ++ hidingSelectors b := by
  have htext : (a ++ "\n" ++ b).toList = a.toList ++ '\n' :: b.toList := by simp
  simp only [hidingSelectors, htext, splitAtChar_eq_splitOn, List.splitOn_append_cons_self,
    List.filterMap_append]

/-! ### Carriage returns -/

/-- A character of a text; a line feed at a chosen place gets a carriage return in front. -/
def returned (chosen : Nat → Bool) : Char × Nat → List Char
  | (c, i) => if c = '\n' && chosen i then ['\r', '\n'] else [c]

/-- The text in which the line feeds at the chosen places stand behind carriage returns. -/
def withReturns (chosen : Nat → Bool) (text : String) : String :=
  String.ofList (text.toList.zipIdx.flatMap (returned chosen))

/-- A line as it was, or with a carriage return at its end. -/
def MayReturn (line line' : List Char) : Prop := line' = line ∨ line' = line ++ ['\r']

theorem MayReturn.cons {line line' : List Char} (h : MayReturn line line') (c : Char) :
    MayReturn (c :: line) (c :: line') := by
  rcases h with rfl | rfl
  · exact .inl rfl
  · exact .inr rfl

theorem forall₂_splitOn_returned (chosen : Nat → Bool) (text : List Char) (i : Nat) :
    List.Forall₂ MayReturn (text.splitOn '\n')
      (((text.zipIdx i).flatMap (returned chosen)).splitOn '\n') := by
  induction text generalizing i with
  | nil => exact .cons (.inl rfl) .nil
  | cons c text ih =>
    have hrest := ih (i + 1)
    rw [List.zipIdx_cons, List.flatMap_cons, returned, List.splitOn_cons_eq_if_modifyHead]
    by_cases hc : c = '\n'
    · subst hc
      by_cases hi : chosen i
      · simpa [hi, List.splitOn_cons_eq_if_modifyHead, MayReturn] using hrest
      · simpa [hi, List.splitOn_cons_eq_if_modifyHead, MayReturn] using hrest
    · -- The first lines grow by the same character.
      obtain ⟨line, lines, hlines⟩ := List.exists_cons_of_ne_nil (List.splitOn_ne_nil '\n' text)
      obtain ⟨line', lines', hlines'⟩ := List.exists_cons_of_ne_nil
        (List.splitOn_ne_nil '\n' ((text.zipIdx (i + 1)).flatMap (returned chosen)))
      rw [hlines, hlines'] at hrest
      obtain ⟨hline, hmore⟩ := List.forall₂_cons.1 hrest
      simpa [hc, List.splitOn_cons_eq_if_modifyHead, hlines, hlines'] using ⟨hline.cons c, hmore⟩

/-- Where no line ends in a carriage return by itself, added ones are dropped again. -/
theorem MayReturn.dropCarriageReturn_eq {line line' : List Char} (h : MayReturn line line')
    (hline : line.getLast? ≠ some '\r') : dropCarriageReturn line' = dropCarriageReturn line := by
  have hkept : dropCarriageReturn line = line := dropCarriageReturn_eq_iff.2 (.inr ⟨rfl, hline⟩)
  rw [hkept, dropCarriageReturn_eq_iff]
  rcases h with rfl | rfl
  · exact .inr ⟨rfl, hline⟩
  · exact .inl rfl

theorem hidingSelectors_withReturns (chosen : Nat → Bool) {text : String}
    (h : ∀ line ∈ text.toList.splitOn '\n', line.getLast? ≠ some '\r') :
    hidingSelectors (withReturns chosen text) = hidingSelectors text := by
  have hlines := forall₂_splitOn_returned chosen text.toList 0
  simp only [hidingSelectors, withReturns, String.toList_ofList, splitAtChar_eq_splitOn]
  generalize ((text.toList.zipIdx 0).flatMap (returned chosen)).splitOn '\n' = lines' at hlines ⊢
  generalize text.toList.splitOn '\n' = lines at h hlines ⊢
  induction hlines with
  | nil => rfl
  | cons hline _ ih =>
    obtain ⟨hfirst, hmore⟩ := List.forall_mem_cons.1 h
    rw [List.filterMap_cons, List.filterMap_cons, hline.dropCarriageReturn_eq hfirst, ih hmore]

/-- Filter lists are made of lines: buckets are joined when lists are, and no choice of line
endings matters to what is taken from a list or written of it. -/
theorem ofFilterList_linewise :
    (∀ (a b : String) (k : Kind), (Buckets.ofFilterList (a ++ "\n" ++ b)).bucket k =
      (Buckets.ofFilterList a).bucket k ++ (Buckets.ofFilterList b).bucket k) ∧
    ∀ (text : String) (chosen : Nat → Bool),
      (∀ line ∈ text.toList.splitOn '\n', line.getLast? ≠ some '\r') →
        hidingSelectors (withReturns chosen text) = hidingSelectors text ∧
        Buckets.ofFilterList (withReturns chosen text) = Buckets.ofFilterList text ∧
        (Buckets.ofFilterList (withReturns chosen text)).toArtifact.toJson =
          (Buckets.ofFilterList text).toArtifact.toJson := by
  constructor
  · intro a b k
    simp only [Buckets.bucket_ofFilterList, hidingSelectors_append, List.filter_append,
      List.map_append]
  · intro text chosen h
    have hselectors := hidingSelectors_withReturns chosen h
    have hbuckets : Buckets.ofFilterList (withReturns chosen text) = Buckets.ofFilterList text := by
      rw [Buckets.ofFilterList, Buckets.ofFilterList, hselectors]
    exact ⟨hselectors, hbuckets, by rw [hbuckets]⟩

/-- A rule with nothing behind its marker and a last line that does not end, the first of two line
feeds behind a carriage return. -/
theorem ofFilterList_linewise_mixed :
    let text := "###a\n##\n##.b"
    withReturns (· == 4) text = "###a\r\n##\n##.b" ∧
      (∀ line ∈ text.toList.splitOn '\n', line.getLast? ≠ some '\r') ∧
      hidingSelectors "###a\r\n##\n##.b" = ["#a", "", ".b"] ∧
      (Buckets.ofFilterList "###a\r\n##\n##.b").toArtifact.toJson =
        (Buckets.ofFilterList text).toArtifact.toJson := by
  intro text
  have hreturns : withReturns (· == 4) text = "###a\r\n##\n##.b" := by decide
  have hlines : ∀ line ∈ text.toList.splitOn '\n', line.getLast? ≠ some '\r' := by
    have hsplit : text.toList.splitOn '\n' = ["###a".toList, "##".toList, "##.b".toList] := by
      decide
    rw [hsplit]
    simp
  obtain ⟨hselectors, -, hjson⟩ := ofFilterList_linewise.2 text (· == 4) hlines
  rw [hreturns] at hselectors hjson
  refine ⟨hreturns, hlines, ?_, hjson⟩
  rw [hselectors]
  decide

end CosmeticLint.FilterList
