import CosmeticLint.Proofs.FilterList.Artifact
import CosmeticLint.Proofs.FilterList.Buckets
import Mathlib.Data.Set.Card

/-! From a filter list to the names that are forbidden: the rules are sorted into buckets, two
of the buckets are written as an artifact, and the artifact is read back. What comes out
forbids exactly the names that lines of the list hide on every site. -/

namespace CosmeticLint.FilterList

theorem nodup_eraseDups : ∀ names : List String, names.eraseDups.Nodup
  | [] => by simp
  | name :: names => by
    rw [List.eraseDups_cons, List.nodup_cons]
    refine ⟨?_, nodup_eraseDups (names.filter fun n => !n == name)⟩
    rw [List.mem_eraseDups, List.mem_filter]
    simp
termination_by names => names.length
decreasing_by exact Nat.lt_succ_of_le (List.length_filter_le _ _)

theorem length_eraseDups (names : List String) :
    names.eraseDups.length = {n | n ∈ names}.ncard := by
  have hset : {n | n ∈ names} = names.eraseDups.toFinset := by
    ext n
    simp
  rw [hset, Set.ncard_coe_finset, List.toFinset_card_of_nodup (nodup_eraseDups names)]

/-- The rule of a marked name: the selectors that the list hides hold the mark in front. -/
theorem exists_hidingSelector_iff {text name : String} (mark : Char) :
    (∃ s ∈ hidingSelectors text, s.toList = mark :: name.toList) ↔
      HasLine text ('#' :: '#' :: mark :: name.toList) := by
  constructor
  · rintro ⟨s, hs, hname⟩
    rw [← hname]
    exact mem_hidingSelectors.1 hs
  · intro h
    refine ⟨String.ofList (mark :: name.toList), mem_hidingSelectors.2 ?_, String.toList_ofList⟩
    rwa [String.toList_ofList]

/-- A filter list forbids, through the file it is written to, the names of its own rules for
every site and no others, and each of them counts once. -/
theorem forbidden_iff_hasLine (text : String) :
    ∃ a, Artifact.ofJson (Buckets.ofFilterList text).toArtifact.toJson = .ok a ∧
      (∀ name, a.isForbiddenId name = true ↔ HasLine text ("###".toList ++ name.toList)) ∧
      (∀ name, a.isForbiddenClass name = true ↔ HasLine text ("##.".toList ++ name.toList)) ∧
      a.size = {name : String | HasLine text ("###".toList ++ name.toList)}.ncard +
        {name : String | HasLine text ("##.".toList ++ name.toList)}.ncard := by
  have hids (name : String) : name ∈ (Buckets.ofFilterList text).ids ↔
      HasLine text ("###".toList ++ name.toList) :=
    Buckets.mem_ids_ofFilterList.trans (exists_hidingSelector_iff '#')
  have hclasses (name : String) : name ∈ (Buckets.ofFilterList text).classes ↔
      HasLine text ("##.".toList ++ name.toList) :=
    Buckets.mem_classes_ofFilterList.trans (exists_hidingSelector_iff '.')
  refine ⟨_, Artifact.ofJson_toJson _, fun name => ?_, fun name => ?_, ?_⟩
  · rw [← hids, Artifact.isForbiddenId, List.contains_iff_mem]
    rfl
  · rw [← hclasses, Artifact.isForbiddenClass, List.contains_iff_mem]
    rfl
  · simp only [← hids, ← hclasses, ← length_eraseDups]
    rfl

end CosmeticLint.FilterList
