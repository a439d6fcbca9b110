import CosmeticLint.Proofs.Lint.Report

/-! Forbidding fewer names only shortens the report. A name is reported as it was looked up, no
finding depends on another, and what cannot be read or looked into is reported whatever names are
forbidden; so the report for some of the names is the report for all of them without the findings
about the others. -/

namespace CosmeticLint.Lint

open FilterList Markup

/-- Whether the diagnostic is about a name that these are not. -/
def Diagnostic.isUnlisted (names : Artifact) (d : Diagnostic) : Bool :=
  (d.code = .forbiddenId && d.name.any (· ∉ names.ids)) ||
    (d.code = .forbiddenClass && d.name.any (· ∉ names.classes))

section Fewer

variable {few many : Artifact}

theorem finding_ids (hids : few.ids ⊆ many.ids) (name : String) (span : Span) :
    finding few.ids .forbiddenId name span =
      (finding many.ids .forbiddenId name span).filter (!·.isUnlisted few) := by
  unfold finding
  by_cases hfew : name ∈ few.ids
  · simp [hfew, hids hfew, Diagnostic.isUnlisted]
  · by_cases hmany : name ∈ many.ids
    · simp [hfew, hmany, Diagnostic.isUnlisted]
    · simp [hfew, hmany]

theorem finding_classes (hclasses : few.classes ⊆ many.classes) (name : String) (span : Span) :
    finding few.classes .forbiddenClass name span =
      (finding many.classes .forbiddenClass name span).filter (!·.isUnlisted few) := by
  unfold finding
  by_cases hfew : name ∈ few.classes
  · simp [hfew, hclasses hfew, Diagnostic.isUnlisted]
  · by_cases hmany : name ∈ many.classes
    · simp [hfew, hmany, Diagnostic.isUnlisted]
    · simp [hfew, hmany]

section Parts

variable (hids : few.ids ⊆ many.ids) (hclasses : few.classes ⊆ many.classes)

include hids hclasses

theorem checkLiteral_filter (offset : Nat) (l : Script.Literal) :
    checkLiteral few offset l = (checkLiteral many offset l).filter (!·.isUnlisted few) := by
  rw [checkLiteral_eq, checkLiteral_eq, List.filter_append, ← finding_ids hids,
    ← finding_classes hclasses]

/-- A script that cannot be read is reported as such under all names. -/
theorem checkScript_filter (read : ScriptReader) (text : String) (dialect : Script.Dialect)
    (offset : Nat) :
    checkScript read few text dialect offset =
      (checkScript read many text dialect offset).filter (!·.isUnlisted few) := by
  unfold checkScript
  cases read text dialect with
  | error f => rfl
  | ok r =>
    rw [List.filter_flatMap]
    exact congrArg r.literals.flatMap (funext (checkLiteral_filter hids hclasses offset))

theorem checkAttribute_filter (a : Attribute) :
    checkAttribute few a = (checkAttribute many a).filter (!·.isUnlisted few) := by
  have hid (v : AttributeValue) :
      checkId few v = (checkId many v).filter (!·.isUnlisted few) := by
    rw [checkId_eq, checkId_eq, finding_ids hids]
  have hclass (token : String × Span) :
      checkClassToken few token = (checkClassToken many token).filter (!·.isUnlisted few) := by
    rw [checkClassToken_eq, checkClassToken_eq, finding_classes hclasses]
  unfold checkAttribute
  cases a.value with
  | none => rfl
  | some v =>
    -- which names are forbidden plays no part in the choice of the branch
    simp only [hid v, funext hclass, ← List.filter_flatMap]
    split
    · rfl
    · split <;> rfl

theorem checkTemplate_filter (t : Template) :
    checkTemplate few t = (checkTemplate many t).filter (!·.isUnlisted few) := by
  have hattributes := funext (checkAttribute_filter hids hclasses)
  unfold checkTemplate
  split
  · simp only [hattributes, List.filter_append, List.filter_flatMap]
  · rfl

theorem checkComponent_filter (read : ScriptReader) (can : Capabilities) (source : String) :
    checkComponent read few can source =
      (checkComponent read many can source).filter (!·.isUnlisted few) := by
  have hscripts := checkScript_filter hids hclasses read
  have htemplate := funext (checkTemplate_filter hids hclasses)
  unfold checkComponent
  dsimp only
  split
  · simp only [hscripts, htemplate, List.filter_append, List.filter_flatMap]
    cases (Component.ofText source).template? <;> rfl
  · rw [List.filter_cons_of_pos (by rfl), List.filter_flatMap]
    simp only [hscripts]

end Parts

/-- With fewer forbidden names a file has the same diagnostics in the same order, without those
about an id or a class that is no longer forbidden. -/
theorem checkWith_fewer (read : ScriptReader) (hids : few.ids ⊆ many.ids)
    (hclasses : few.classes ⊆ many.classes) (can : Capabilities) (filename source : String) :
    checkWith read few can filename source =
      (checkWith read many can filename source).filter (!·.isUnlisted few) := by
  rw [checkWith_eq, checkWith_eq]
  cases FileKind.ofPath? filename with
  | none => rfl
  | some kind =>
    cases kind with
    | script dialect =>
      simp only [checkScript_filter hids hclasses read source dialect 0, sortByStart_filter]
    | component => simp only [checkComponent_filter hids hclasses read can, sortByStart_filter]

end Fewer

/-- A script that cannot be read, a literal that is on both lists, and encoded names in a
template. -/
theorem checkWith_fewer_mixed :
    ∃ (read : ScriptReader) (source : String),
      (["x"] ⊆ ["y", "x"] ∧ [] ⊆ ["x", "y"]) ∧
      checkWith read ⟨["x"], []⟩ .full "a.vue" source =
        (checkWith read ⟨["y", "x"], ["x", "y"]⟩ .full "a.vue" source).filter
          (!·.isUnlisted ⟨["x"], []⟩) ∧
      (checkWith read ⟨["y", "x"], ["x", "y"]⟩ .full "a.vue" source).map
          (fun d => (d.code, d.span.start)) =
        [(.forbiddenId, 8), (.forbiddenClass, 8), (.forbiddenId, 33), (.forbiddenClass, 51),
          (.forbiddenId, 57), (.parseError, 87)] ∧
      (checkWith read ⟨["x"], []⟩ .full "a.vue" source).map (fun d => (d.code, d.span.start)) =
        [(.forbiddenId, 8), (.forbiddenId, 57), (.parseError, 87)] := by
  refine ⟨fun text _ =>
      if text = ")" then .error ⟨"Expression expected", ⟨0, 1⟩⟩
      else .ok ⟨[⟨.string, "x", ⟨0, 3⟩⟩], []⟩,
    "<script>'x'</script><template id=y><p class=\"&#97; y\" id=&#x78;></p></template>" ++
      "<script>)</script>",
    by decide, checkWith_fewer _ (by decide) (by decide) _ _ _, ?_, ?_⟩
  all_goals decide +kernel

end CosmeticLint.Lint
