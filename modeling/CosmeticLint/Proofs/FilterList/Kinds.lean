import CosmeticLint.Proofs.FilterList.Buckets
import Mathlib.Data.List.Count
import Mathlib.Logic.ExistsUnique

/-! The kinds of selectors, told by their texts alone. Every text is of exactly one kind, and the
tests of the classification, made one after the other, find it. Each bucket holds the selectors of
one kind as they follow each other in the list, and the five together hold all of them. -/

namespace CosmeticLint.FilterList

/-- `[name]` with a name of letters, digits, hyphens and underscores. -/
def IsPresenceTest (s : String) : Prop :=
  ∃ name : String, s = "[" ++ name ++ "]" ∧ name ≠ "" ∧
    ∀ c ∈ name.toList, isAlphanumeric c ∨ c = '-' ∨ c = '_'

def HasBrackets (s : String) : Prop := '[' ∈ s.toList ∧ ']' ∈ s.toList

/-- No mark of an id or a class stands in front. -/
def Unmarked (s : String) : Prop := s.toList.head? ≠ some '#' ∧ s.toList.head? ≠ some '.'

inductive Kind
  | idName
  | className
  | simpleAttribute
  | complexAttribute
  | element
  deriving Repr, DecidableEq

namespace Kind

/-- What the texts of a kind look like. -/
def Fits (s : String) : Kind → Prop
  | idName => s.toList.head? = some '#'
  | className => s.toList.head? = some '.'
  | simpleAttribute => IsPresenceTest s
  | complexAttribute => Unmarked s ∧ HasBrackets s ∧ ¬ IsPresenceTest s
  | element => Unmarked s ∧ ¬ HasBrackets s

/-- A text of a kind without the mark that the kind has. -/
def unmarked (s : String) : Kind → String
  | idName | className => String.ofList s.toList.tail
  | _ => s

end Kind

/-! ### One kind for each text -/

theorem isAttributeNameChar_iff {c : Char} :
    isAttributeNameChar c = true ↔ isAlphanumeric c ∨ c = '-' ∨ c = '_' := by
  simp [isAttributeNameChar, or_assoc]

theorem isSimpleAttribute_iff {s : String} :
    isSimpleAttribute s.toList = true ↔ IsPresenceTest s := by
  constructor
  · intro h
    unfold isSimpleAttribute at h
    split at h
    · rename_i rest hs
      simp only [Bool.and_eq_true, beq_iff_eq, Bool.not_eq_true', List.isEmpty_eq_false_iff,
        List.all_eq_true, isAttributeNameChar_iff] at h
      obtain ⟨⟨hlast, hne⟩, hall⟩ := h
      refine ⟨String.ofList rest.dropLast, ?_, ?_, ?_⟩
      · obtain ⟨init, rfl⟩ := List.getLast?_eq_some_iff.1 hlast
        simp [← String.toList_inj, hs]
      · simpa [← String.toList_inj] using hne
      · simpa using hall
    · cases h
  · rintro ⟨name, rfl, hne, hall⟩
    have hne : name.toList ≠ [] := by simpa using hne
    have hall : name.toList.all isAttributeNameChar = true := by
      simpa only [List.all_eq_true, isAttributeNameChar_iff] using hall
    simp [isSimpleAttribute, hne, hall]

theorem IsPresenceTest.unmarked {s : String} (h : IsPresenceTest s) : Unmarked s := by
  obtain ⟨name, rfl, -⟩ := h
  simp [Unmarked]

theorem IsPresenceTest.hasBrackets {s : String} (h : IsPresenceTest s) : HasBrackets s := by
  obtain ⟨name, rfl, -⟩ := h
  simp [HasBrackets]

theorem Kind.exists_fits (s : String) : ∃ k : Kind, k.Fits s := by
  by_cases hid : s.toList.head? = some '#'
  · exact ⟨.idName, hid⟩
  by_cases hclass : s.toList.head? = some '.'
  · exact ⟨.className, hclass⟩
  by_cases hbrackets : HasBrackets s
  · by_cases htest : IsPresenceTest s
    · exact ⟨.simpleAttribute, htest⟩
    · exact ⟨.complexAttribute, ⟨hid, hclass⟩, hbrackets, htest⟩
  · exact ⟨.element, ⟨hid, hclass⟩, hbrackets⟩

namespace Selector

def kind : Selector → Kind
  | .id _ => .idName
  | .class _ => .className
  | .simpleAttribute _ => .simpleAttribute
  | .complexAttribute _ => .complexAttribute
  | .element _ => .element

/-- The name or text that is put into a bucket. -/
def carried : Selector → String
  | .id name | .class name => name
  | .simpleAttribute text | .complexAttribute text | .element text => text

/-- The text that a selector is classified from. -/
def written : Selector → String
  | .id name => "#" ++ name
  | .class name => "." ++ name
  | .simpleAttribute text | .complexAttribute text | .element text => text

theorem classify_of_unmarked {s : String} (h : Unmarked s) :
    classify s = if isSimpleAttribute s.toList then .simpleAttribute s
      else if s.toList.contains '[' && s.toList.contains ']' then .complexAttribute s
      else .element s := by
  unfold classify
  split
  · rename_i name hs
    exact absurd (by rw [hs]; rfl) h.1
  · rename_i name hs
    exact absurd (by rw [hs]; rfl) h.2
  · rfl

/-- The tests find the kind that a text fits. -/
theorem kind_classify_of_fits {s : String} {k : Kind} (h : k.Fits s) : (classify s).kind = k := by
  cases k with
  | idName =>
    obtain ⟨name, hs⟩ := List.head?_eq_some_iff.1 h
    rw [classify_eq_id_iff.2 (hs.trans (by rw [String.toList_ofList]))]
    rfl
  | className =>
    obtain ⟨name, hs⟩ := List.head?_eq_some_iff.1 h
    rw [classify_eq_class_iff.2 (hs.trans (by rw [String.toList_ofList]))]
    rfl
  | simpleAttribute =>
    rw [classify_of_unmarked h.unmarked, if_pos (isSimpleAttribute_iff.2 h)]
    rfl
  | complexAttribute =>
    obtain ⟨hs, hbrackets, htest⟩ := h
    rw [classify_of_unmarked hs, if_neg (isSimpleAttribute_iff.not.2 htest),
      if_pos (by simpa [HasBrackets] using hbrackets)]
    rfl
  | element =>
    obtain ⟨hs, hbrackets⟩ := h
    have htest : ¬ IsPresenceTest s := fun htest => hbrackets htest.hasBrackets
    rw [classify_of_unmarked hs, if_neg (isSimpleAttribute_iff.not.2 htest),
      if_neg (by simpa [HasBrackets] using hbrackets)]
    rfl

theorem kind_classify_eq_iff {s : String} {k : Kind} : (classify s).kind = k ↔ k.Fits s := by
  refine ⟨?_, kind_classify_of_fits⟩
  rintro rfl
  obtain ⟨k, hk⟩ := Kind.exists_fits s
  rwa [kind_classify_of_fits hk]

/-- A text loses its mark and nothing else. -/
theorem carried_classify (s : String) :
    (classify s).carried = (classify s).kind.unmarked s ∧ (classify s).written = s := by
  rcases classify_cases s with ⟨name, hs, hc⟩ | ⟨name, hs, hc⟩ | ⟨-, hc⟩
  · simp [hc, kind, carried, written, Kind.unmarked, hs, ← String.toList_inj]
  · simp [hc, kind, carried, written, Kind.unmarked, hs, ← String.toList_inj]
  · rcases hc with hc | hc | hc <;> simp [hc, kind, carried, written, Kind.unmarked]

end Selector

instance (s : String) (k : Kind) : Decidable (k.Fits s) :=
  decidable_of_iff _ Selector.kind_classify_eq_iff

/-! ### One bucket for each kind -/

namespace Buckets

def bucket (b : Buckets) : Kind → List String
  | .idName => b.ids
  | .className => b.classes
  | .simpleAttribute => b.simpleAttributes
  | .complexAttribute => b.complexAttributes
  | .element => b.elements

/-- The contents of all buckets, with the marks of ids and classes put back. -/
def written (b : Buckets) : List String :=
  b.ids.map ("#" ++ ·) ++ b.classes.map ("." ++ ·) ++ b.simpleAttributes ++
    b.complexAttributes ++ b.elements

theorem length_written (b : Buckets) : b.written.length = b.total := by
  simp only [written, total, List.length_append, List.length_map]

theorem bucket_push (b : Buckets) (s : Selector) (k : Kind) :
    (b.push s).bucket k = b.bucket k ++ if s.kind = k then [s.carried] else [] := by
  cases s <;> cases k <;> simp [push, bucket, Selector.kind, Selector.carried]

theorem bucket_ofSelectors (selectors : List Selector) (k : Kind) :
    (ofSelectors selectors).bucket k =
      (selectors.filter (·.kind = k)).map Selector.carried := by
  induction selectors using List.reverseRecOn with
  | nil => cases k <;> rfl
  | append_singleton selectors s ih =>
    rw [ofSelectors_concat, bucket_push, ih, List.filter_append, List.map_append]
    by_cases h : s.kind = k <;> simp [h]

theorem written_push_perm (b : Buckets) (s : Selector) :
    (b.push s).written.Perm (s.written :: b.written) := by
  rw [List.perm_iff_count]
  intro text
  cases s <;> simp only [push, written, Selector.written, List.count_append, List.count_cons,
    List.map_append, List.map_cons, List.map_nil, List.count_nil] <;> omega

theorem written_ofSelectors_perm (selectors : List Selector) :
    (ofSelectors selectors).written.Perm (selectors.map Selector.written) := by
  induction selectors using List.reverseRecOn with
  | nil => exact .nil
  | append_singleton selectors s ih =>
    rw [ofSelectors_concat, List.map_append]
    have hpush := (written_push_perm (ofSelectors selectors) s).trans (ih.cons s.written)
    exact hpush.trans (List.perm_append_singleton s.written _).symm

theorem bucket_ofFilterList (text : String) (k : Kind) : (ofFilterList text).bucket k =
    ((hidingSelectors text).filter (k.Fits ·)).map k.unmarked := by
  rw [ofFilterList_eq, bucket_ofSelectors, List.filter_map, List.map_map]
  simp only [Function.comp_def, Selector.kind_classify_eq_iff]
  refine List.map_congr_left fun s hs => ?_
  have hk : k.Fits s := by simpa using (List.mem_filter.1 hs).2
  rw [(Selector.carried_classify s).1, Selector.kind_classify_eq_iff.2 hk]

theorem written_ofFilterList_perm (text : String) :
    (hidingSelectors text).Perm (ofFilterList text).written := by
  have hwritten : Selector.written ∘ Selector.classify = id := by
    funext s
    exact (Selector.carried_classify s).2
  have h := written_ofSelectors_perm ((hidingSelectors text).map .classify)
  rw [← ofFilterList_eq, List.map_map, hwritten, List.map_id] at h
  exact h.symm

/-- Ids and classes apart, a bucket holds texts of its kind. -/
theorem fits_of_mem_bucket {text s : String} {k : Kind} (hk : k ≠ .idName ∧ k ≠ .className)
    (h : s ∈ (ofFilterList text).bucket k) : k.Fits s := by
  rw [bucket_ofFilterList] at h
  obtain ⟨t, ht, rfl⟩ := List.mem_map.1 h
  have hfits : k.Fits t := by simpa using (List.mem_filter.1 ht).2
  have hsame : k.unmarked t = t := by cases k <;> simp_all [Kind.unmarked]
  rwa [hsame]

/-- Selectors sorted by kind: nothing is lost, repeated or put into another order, and what is held
as it was written shows its kind. -/
structure Sorts (b : Buckets) (selectors : List String) : Prop where
  bucket (k : Kind) : b.bucket k = (selectors.filter (k.Fits ·)).map k.unmarked
  total : b.total = selectors.length
  perm : selectors.Perm (b.ids.map ("#" ++ ·) ++ b.classes.map ("." ++ ·) ++ b.simpleAttributes ++
    b.complexAttributes ++ b.elements)
  simple : ∀ s ∈ b.simpleAttributes, IsPresenceTest s
  complex : ∀ s ∈ b.complexAttributes, HasBrackets s ∧ ¬ IsPresenceTest s
  unmarked : ∀ s ∈ b.simpleAttributes ++ b.complexAttributes ++ b.elements, Unmarked s

/-- The selectors of a filter list are sorted by kind, and a text alone decides on its kind. -/
theorem ofFilterList_sorts (text : String) :
    (ofFilterList text).Sorts (hidingSelectors text) ∧ ∀ s : String, ∃! k : Kind, k.Fits s := by
  have hperm := written_ofFilterList_perm text
  have hsimple (s : String) (h : s ∈ (ofFilterList text).simpleAttributes) : IsPresenceTest s :=
    fits_of_mem_bucket (k := .simpleAttribute) (by decide) h
  have hcomplex (s : String) (h : s ∈ (ofFilterList text).complexAttributes) :
      Unmarked s ∧ HasBrackets s ∧ ¬ IsPresenceTest s :=
    fits_of_mem_bucket (k := .complexAttribute) (by decide) h
  have helement (s : String) (h : s ∈ (ofFilterList text).elements) : Unmarked s :=
    (fits_of_mem_bucket (k := .element) (by decide) h).1
  refine ⟨⟨bucket_ofFilterList text, ?_, hperm, hsimple, ?_, ?_⟩, ?_⟩
  · rw [← length_written, hperm.length_eq]
  · intro s h
    exact (hcomplex s h).2
  · intro s h
    rcases List.mem_append.1 h with h | h
    · rcases List.mem_append.1 h with h | h
      · exact (hsimple s h).unmarked
      · exact (hcomplex s h).1
    · exact helement s h
  · intro s
    refine ⟨(Selector.classify s).kind, Selector.kind_classify_eq_iff.1 rfl, fun k hk => ?_⟩
    exact (Selector.kind_classify_eq_iff.2 hk).symm

/-- Brackets in the wrong order or with nothing between them are no test for an attribute. -/
example : (ofFilterList "##]b[\r\n##[b]\n##[]").bucket .complexAttribute = ["]b[", "[]"] := by
  decide

end Buckets

end CosmeticLint.FilterList
