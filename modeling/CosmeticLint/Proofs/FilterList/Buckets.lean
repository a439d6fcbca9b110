import CosmeticLint.FilterList.Buckets
import CosmeticLint.Proofs.Text.Split
import Mathlib.Data.List.Induction

/-! Rules of a filter list and the buckets they go to. A selector is hidden when some line of
the list is its rule, and each bucket holds, in the order of the list, what the selectors of
its kind carry. -/

namespace CosmeticLint.FilterList

/-! ### Lines -/

/-- Some line of the list is the rule, once a carriage return at the line's end is dropped. -/
def HasLine (text : String) (rule : List Char) : Prop :=
  ∃ line ∈ text.toList.splitOn '\n',
    line = rule ++ ['\r'] ∨ line = rule ∧ line.getLast? ≠ some '\r'

theorem dropCarriageReturn_eq_iff {line rule : List Char} : dropCarriageReturn line = rule ↔
    line = rule ++ ['\r'] ∨ line = rule ∧ line.getLast? ≠ some '\r' := by
  unfold dropCarriageReturn
  split
  · rename_i hlast
    rw [List.getLast?_eq_some_iff] at hlast
    obtain ⟨init, rfl⟩ := hlast
    simp
  · rename_i hlast
    constructor
    · rintro rfl
      exact Or.inr ⟨rfl, hlast⟩
    · rintro (rfl | ⟨rfl, -⟩)
      · simp at hlast
      · rfl

theorem genericSelector?_eq_some_iff {line : List Char} {s : String} :
    genericSelector? line = some s ↔ line = '#' :: '#' :: s.toList := by
  unfold genericSelector?
  split
  · simp [String.ext_iff]
  · rename_i hother
    simp only [reduceCtorEq, false_iff]
    exact hother s.toList

theorem mem_hidingSelectors {text s : String} :
    s ∈ hidingSelectors text ↔ HasLine text ('#' :: '#' :: s.toList) := by
  simp only [hidingSelectors, HasLine, splitAtChar_eq_splitOn, List.mem_filterMap,
    genericSelector?_eq_some_iff, dropCarriageReturn_eq_iff]

/-! ### Kinds -/

namespace Selector

/-- The mark in front makes an id or a class; what has neither mark is kept as it is. -/
theorem classify_cases (s : String) :
    (∃ name, s.toList = '#' :: name.toList ∧ classify s = .id name) ∨
      (∃ name, s.toList = '.' :: name.toList ∧ classify s = .class name) ∨
        ((∀ name, s.toList ≠ '#' :: name) ∧ (∀ name, s.toList ≠ '.' :: name)) ∧
          (classify s = .simpleAttribute s ∨ classify s = .complexAttribute s ∨
            classify s = .element s) := by
  unfold classify
  split
  · rename_i name hs
    exact Or.inl ⟨String.ofList name, by rw [hs, String.toList_ofList], rfl⟩
  · rename_i name hs
    exact Or.inr (Or.inl ⟨String.ofList name, by rw [hs, String.toList_ofList], rfl⟩)
  · rename_i hid hclass
    refine Or.inr (Or.inr ⟨⟨hid, hclass⟩, ?_⟩)
    split
    · exact Or.inl rfl
    · split
      · exact Or.inr (Or.inl rfl)
      · exact Or.inr (Or.inr rfl)

theorem classify_eq_id_iff {s name : String} :
    classify s = .id name ↔ s.toList = '#' :: name.toList := by
  rcases classify_cases s with ⟨n, hs, hc⟩ | ⟨n, hs, hc⟩ | ⟨⟨hid, -⟩, hc⟩
  · simp [hs, hc, String.ext_iff]
  · simp [hs, hc]
  · rcases hc with hc | hc | hc <;> simp [hc, hid]

theorem classify_eq_class_iff {s name : String} :
    classify s = .class name ↔ s.toList = '.' :: name.toList := by
  rcases classify_cases s with ⟨n, hs, hc⟩ | ⟨n, hs, hc⟩ | ⟨⟨-, hclass⟩, hc⟩
  · simp [hs, hc]
  · simp [hs, hc, String.ext_iff]
  · rcases hc with hc | hc | hc <;> simp [hc, hclass]

def id? : Selector → Option String
  | .id name => some name
  | _ => none

def class? : Selector → Option String
  | .class name => some name
  | _ => none

def simpleAttribute? : Selector → Option String
  | .simpleAttribute text => some text
  | _ => none

def complexAttribute? : Selector → Option String
  | .complexAttribute text => some text
  | _ => none

def element? : Selector → Option String
  | .element text => some text
  | _ => none

end Selector

namespace Buckets

/-- Every bucket with what the selectors of its kind carry. -/
def ofSelectors (selectors : List Selector) : Buckets where
  ids := selectors.filterMap Selector.id?
  classes := selectors.filterMap Selector.class?
  simpleAttributes := selectors.filterMap Selector.simpleAttribute?
  complexAttributes := selectors.filterMap Selector.complexAttribute?
  elements := selectors.filterMap Selector.element?

theorem ofSelectors_concat (selectors : List Selector) (s : Selector) :
    ofSelectors (selectors ++ [s]) = (ofSelectors selectors).push s := by
  cases s <;> simp [ofSelectors, push, Selector.id?, Selector.class?, Selector.simpleAttribute?,
    Selector.complexAttribute?, Selector.element?]

theorem foldl_push (selectors : List Selector) :
    selectors.foldl push empty = ofSelectors selectors := by
  induction selectors using List.reverseRecOn with
  | nil => rfl
  | append_singleton selectors s ih =>
    rw [List.foldl_append, List.foldl_cons, List.foldl_nil, ih, ofSelectors_concat]

theorem ofFilterList_eq (text : String) :
    ofFilterList text = ofSelectors ((hidingSelectors text).map .classify) := by
  rw [← foldl_push, List.foldl_map]
  rfl

theorem mem_ids_ofFilterList {text name : String} : name ∈ (ofFilterList text).ids ↔
    ∃ s ∈ hidingSelectors text, s.toList = '#' :: name.toList := by
  have hid (s : Selector) : s.id? = some name ↔ s = .id name := by
    cases s <;> simp [Selector.id?]
  simp only [ofFilterList_eq, ofSelectors, List.mem_filterMap, hid, List.mem_map,
    exists_eq_right, Selector.classify_eq_id_iff]

theorem mem_classes_ofFilterList {text name : String} : name ∈ (ofFilterList text).classes ↔
    ∃ s ∈ hidingSelectors text, s.toList = '.' :: name.toList := by
  have hclass (s : Selector) : s.class? = some name ↔ s = .class name := by
    cases s <;> simp [Selector.class?]
  simp only [ofFilterList_eq, ofSelectors, List.mem_filterMap, hclass, List.mem_map,
    exists_eq_right, Selector.classify_eq_class_iff]

end Buckets

end CosmeticLint.FilterList
