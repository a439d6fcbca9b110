import CosmeticLint.Proofs.Lint.Report
import Mathlib.Tactic.SplitIfs

/-! What a check can report, whatever the file: four kinds of diagnostics, told by their messages
and by the names they are about. -/

namespace CosmeticLint.Lint

open FilterList Markup

/-- Everything that a check can say: that a name is forbidden as an id or as a class, that a script
cannot be read, or that templates cannot be looked into. -/
inductive Reportable (read : ScriptReader) (forbidden : Artifact) : Diagnostic → Prop
  | forbiddenId {name : String} {span : Span} : name ∈ forbidden.ids →
      Reportable read forbidden (.aboutName .forbiddenId name span)
  | forbiddenClass {name : String} {span : Span} : name ∈ forbidden.classes →
      Reportable read forbidden (.aboutName .forbiddenClass name span)
  | unreadable {text : String} {dialect : Script.Dialect} {f : Script.Fault} {span : Span} :
      read text dialect = .error f →
      Reportable read forbidden (.plain .parseError ("Parsing error: " ++ f.message) span)
  | unavailable : Reportable read forbidden templateUnavailable

section

variable {read : ScriptReader} {forbidden : Artifact} {d : Diagnostic}

/-- A diagnostic is only about forbidden names. -/
theorem Reportable.name_mem {name : String} (h : Reportable read forbidden d)
    (hname : d.name = some name) : name ∈ forbidden.ids ++ forbidden.classes := by
  cases h with
  | forbiddenId hmem =>
    cases hname
    exact List.mem_append_left _ hmem
  | forbiddenClass hmem =>
    cases hname
    exact List.mem_append_right _ hmem
  | unreadable _ => cases hname
  | unavailable => cases hname

theorem reportable_of_mem_checkScript {text : String} {dialect : Script.Dialect} {offset : Nat}
    (h : d ∈ checkScript read forbidden text dialect offset) : Reportable read forbidden d := by
  unfold checkScript at h
  split at h
  · obtain ⟨l, -, hd⟩ := List.mem_flatMap.1 h
    simp only [checkLiteral, checkCandidate, List.mem_append, List.mem_ite_nil_right,
      List.mem_singleton, Artifact.isForbiddenId, Artifact.isForbiddenClass,
      List.contains_iff_mem] at hd
    rcases hd with ⟨hname, rfl⟩ | ⟨hname, rfl⟩
    · exact .forbiddenId hname
    · exact .forbiddenClass hname
  · rename_i f hread
    rw [List.mem_singleton.1 h]
    exact .unreadable hread

theorem reportable_of_mem_checkAttribute {a : Attribute} (h : d ∈ checkAttribute forbidden a) :
    Reportable read forbidden d := by
  unfold checkAttribute at h
  split at h
  · cases h
  · rename_i v _
    split_ifs at h
    · simp only [checkId, List.mem_ite_nil_right, List.mem_singleton, Artifact.isForbiddenId,
        List.contains_iff_mem] at h
      obtain ⟨hname, rfl⟩ := h
      exact .forbiddenId hname
    · obtain ⟨token, -, hd⟩ := List.mem_flatMap.1 h
      simp only [checkClassToken, List.mem_ite_nil_right, List.mem_singleton,
        Artifact.isForbiddenClass, List.contains_iff_mem] at hd
      obtain ⟨hname, rfl⟩ := hd
      exact .forbiddenClass hname
    · cases h

theorem reportable_of_mem_checkTemplate {t : Template} (h : d ∈ checkTemplate forbidden t) :
    Reportable read forbidden d := by
  unfold checkTemplate at h
  split at h
  · rcases List.mem_append.1 h with h | h
    · obtain ⟨a, -, hd⟩ := List.mem_flatMap.1 h
      exact reportable_of_mem_checkAttribute hd
    · obtain ⟨e, -, he⟩ := List.mem_flatMap.1 h
      obtain ⟨a, -, hd⟩ := List.mem_flatMap.1 he
      exact reportable_of_mem_checkAttribute hd
  · cases h

theorem reportable_of_mem_checkComponent {can : Capabilities} {source : String}
    (h : d ∈ checkComponent read forbidden can source) : Reportable read forbidden d := by
  have hscripts : ∀ d ∈ (Component.ofText source).scripts.flatMap fun b =>
      checkScript read forbidden b.content b.dialect b.contentSpan.start,
      Reportable read forbidden d := by
    intro d hd
    obtain ⟨b, -, hb⟩ := List.mem_flatMap.1 hd
    exact reportable_of_mem_checkScript hb
  unfold checkComponent at h
  dsimp only at h
  split at h
  · rcases List.mem_append.1 h with h | h
    · exact hscripts d h
    · cases ht : (Component.ofText source).template? with
      | none => simp [ht] at h
      | some t =>
        rw [ht] at h
        exact reportable_of_mem_checkTemplate h
  · rcases List.mem_cons.1 h with rfl | h
    · exact .unavailable
    · exact hscripts d h

theorem reportable_of_mem_checkWith {can : Capabilities} {filename source : String}
    (h : d ∈ checkWith read forbidden can filename source) : Reportable read forbidden d := by
  rw [checkWith_eq] at h
  split at h
  · cases h
  · rw [sortByStart_eq_mergeSort, List.mem_mergeSort] at h
    exact reportable_of_mem_checkScript h
  · rw [sortByStart_eq_mergeSort, List.mem_mergeSort] at h
    exact reportable_of_mem_checkComponent h

end

end CosmeticLint.Lint
