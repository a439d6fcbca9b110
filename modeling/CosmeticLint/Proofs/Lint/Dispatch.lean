import CosmeticLint.Lint.Check

/-! What dispatch amounts to. With the one rule that there is, every node that the rule asked for
adds its findings to those before it, so the check of a file is made of the findings of its
literals and of its template's attributes, in this order. -/

namespace CosmeticLint.Lint

open FilterList Markup

/-! ### Findings -/

section Findings

variable (read : ScriptReader) (forbidden : Artifact)

/-- The findings of a literal of a script that starts at an offset. -/
def checkLiteral (offset : Nat) (l : Script.Literal) : List Diagnostic :=
  checkCandidate forbidden l.value (l.span.shift offset)

/-- The findings of script text that starts at an offset of the file. -/
def checkScript (text : String) (dialect : Script.Dialect) (offset : Nat) : List Diagnostic :=
  match read text dialect with
  | .ok r => r.literals.flatMap (checkLiteral forbidden offset)
  | .error f => [.plain .parseError (Code.parseError.template ++ ": " ++ f.message)
      (f.span.shift offset)]

/-- The findings of the template's own tag, then those of its elements in source order. -/
def checkTemplate (t : Template) : List Diagnostic :=
  if t.isHtml then
    t.attributes.flatMap (checkAttribute forbidden) ++
      t.elements.flatMap fun e => e.attributes.flatMap (checkAttribute forbidden)
  else []

def checkComponent (can : Capabilities) (source : String) : List Diagnostic :=
  let component := Component.ofText source
  let scripts := component.scripts.flatMap fun b =>
    checkScript read forbidden b.content b.dialect b.contentSpan.start
  if can.templateBody then
    scripts ++ (component.template?.map (checkTemplate forbidden)).getD []
  else templateUnavailable :: scripts

end Findings

/-- No directive is called `id` or `class`. -/
theorem checkAttribute_of_isDirective (forbidden : Artifact) {a : Attribute}
    (h : a.isDirective = true) : checkAttribute forbidden a = [] := by
  have hid : a.name ≠ "id" := by
    intro hid
    rw [Attribute.isDirective, hid] at h
    exact absurd h (by decide)
  have hclass : a.name ≠ "class" := by
    intro hclass
    rw [Attribute.isDirective, hclass] at h
    exact absurd h (by decide)
  rw [checkAttribute]
  cases a.value with
  | none => rfl
  | some v => exact (if_neg hid).trans (if_neg hclass)

/-! ### Reports -/

namespace RuleContext

theorem reportAll_reportAll (ctx : RuleContext) (as bs : List Diagnostic) :
    (ctx.reportAll as).reportAll bs = ctx.reportAll (as ++ bs) :=
  (List.foldl_append ..).symm

theorem diagnostics_reportAll (ctx : RuleContext) (ds : List Diagnostic) :
    (ctx.reportAll ds).diagnostics = ctx.diagnostics ++ ds := by
  induction ds generalizing ctx with
  | nil => exact (List.append_nil _).symm
  | cons d ds ih =>
    have hcons : ctx.reportAll (d :: ds) = (ctx.report d).reportAll ds := rfl
    rw [hcons, ih, report, List.append_assoc, List.singleton_append]

end RuleContext

namespace Driver

/-- The driver of the one rule, with what the rule asked for. -/
def single (forbidden : Artifact) (r : Registration) (ctx : RuleContext) : Driver :=
  ⟨Rule.all forbidden, [r], ctx⟩

variable {forbidden : Artifact} {r : Registration}

theorem context_single (ctx : RuleContext) : (single forbidden r ctx).context = ctx := rfl

theorem interested_single {category : NodeCategory} (h : r.contains category = true)
    (ctx : RuleContext) :
    (single forbidden r ctx).interested category = [.hiddenNames forbidden] := by
  simp [single, interested, Rule.all, h]

/-- Where every step only reports, a loop reports one finding after the other. -/
theorem foldl_single {α : Type} {step : Driver → α → Driver} {findings : α → List Diagnostic}
    (hstep : ∀ ctx a, step (single forbidden r ctx) a =
      single forbidden r (ctx.reportAll (findings a))) (as : List α) (ctx : RuleContext) :
    as.foldl step (single forbidden r ctx) =
      single forbidden r (ctx.reportAll (as.flatMap findings)) := by
  induction as generalizing ctx with
  | nil => rfl
  | cons a as ih =>
    rw [List.foldl_cons, hstep, ih, RuleContext.reportAll_reportAll, List.flatMap_cons]

section Scripts

variable (hstring : r.contains .stringLiteral = true) (hquasi : r.contains .templateQuasi = true)

include hstring hquasi

theorem literal_single (ctx : RuleContext) (l : Script.Literal) :
    (single forbidden r ctx).literal l =
      single forbidden r (ctx.reportAll (checkCandidate forbidden l.value l.span)) := by
  rw [literal, interested_single hstring, interested_single hquasi]
  cases l.category <;> rfl

theorem script_single (read : ScriptReader) (ctx : RuleContext) (text : String)
    (dialect : Script.Dialect) (offset : Nat) :
    (single forbidden r ctx).script read text dialect offset =
      single forbidden r (ctx.reportAll (checkScript read forbidden text dialect offset)) := by
  rw [script, checkScript]
  cases read text dialect with
  | error f => rfl
  | ok reading =>
    exact foldl_single (fun ctx l => literal_single hstring hquasi ctx (l.shift offset)) _ ctx

end Scripts

/-- Directives are not shown to the rule, which would find nothing in them. -/
theorem flatMap_checkAttribute_filter (forbidden : Artifact) (as : List (String × Attribute)) :
    ((as.filter fun (_, a) => !a.isDirective).flatMap fun p => checkAttribute forbidden p.2) =
      as.flatMap fun p => checkAttribute forbidden p.2 := by
  induction as with
  | nil => rfl
  | cons p as ih =>
    cases hp : p.2.isDirective with
    | true =>
      rw [List.filter_cons_of_neg (by simp [hp]), List.flatMap_cons, ih,
        checkAttribute_of_isDirective forbidden hp, List.nil_append]
    | false => rw [List.filter_cons_of_pos (by simp [hp]), List.flatMap_cons, List.flatMap_cons, ih]

theorem template_single (hattribute : r.contains .templateAttribute = true) (ctx : RuleContext)
    (t : Template) :
    (single forbidden r ctx).template t =
      single forbidden r (ctx.reportAll (checkTemplate forbidden t)) := by
  rw [template, interested_single hattribute, checkTemplate]
  cases t.isHtml with
  | false => rfl
  | true =>
    have hvisit (ctx : RuleContext) (p : String × Attribute) :
        (single forbidden r ctx).visit [.hiddenNames forbidden] (·.templateAttribute p.1 p.2) =
          single forbidden r (ctx.reportAll (checkAttribute forbidden p.2)) := rfl
    simp only [List.isEmpty_cons, Bool.not_true, Bool.or_self, Bool.false_eq_true, if_false,
      if_true]
    refine (foldl_single hvisit _ ctx).trans ?_
    rw [flatMap_checkAttribute_filter, List.flatMap_append, List.flatMap_map, List.flatMap_assoc]
    simp only [List.flatMap_map]

/-- The scripts come first, then the template if it can be looked into. -/
theorem component_single (hstring : r.contains .stringLiteral = true)
    (hquasi : r.contains .templateQuasi = true) (read : ScriptReader) {can : Capabilities}
    (hattribute : can.templateBody = true → r.contains .templateAttribute = true)
    (ctx : RuleContext) (c : Component) :
    (single forbidden r ctx).component read can c =
      single forbidden r (ctx.reportAll ((c.scripts.flatMap fun b =>
        checkScript read forbidden b.content b.dialect b.contentSpan.start) ++
          if can.templateBody then (c.template?.map (checkTemplate forbidden)).getD []
          else [])) := by
  rw [component, foldl_single fun ctx (b : ScriptBlock) =>
    script_single hstring hquasi read ctx b.content b.dialect b.contentSpan.start]
  cases hcan : can.templateBody with
  | false => simp
  | true =>
    cases c.template? with
    | none => simp
    | some t =>
      simp only [if_true, Option.elim_some, template_single (hattribute hcan),
        RuleContext.reportAll_reportAll, Option.map_some, Option.getD_some]

end Driver

/-! ### Files -/

/-- The check of a file without rules and dispatch. -/
theorem checkWith_eq (read : ScriptReader) (forbidden : Artifact) (can : Capabilities)
    (filename source : String) :
    checkWith read forbidden can filename source =
      match FileKind.ofPath? filename with
      | none => []
      | some (.script dialect) => sortByStart (checkScript read forbidden source dialect 0)
      | some .component => sortByStart (checkComponent read forbidden can source) := by
  rw [checkWith, applyRules]
  cases FileKind.ofPath? filename with
  | none => rfl
  | some kind =>
    obtain ⟨r, ctx, hregister, hstring, hquasi, hattribute, hctx⟩ : ∃ r ctx,
        registerAll (Rule.all forbidden) ⟨filename, kind, can, []⟩ = ([r], ctx) ∧
          r.contains .stringLiteral = true ∧ r.contains .templateQuasi = true ∧
          (can.templateBody = true → r.contains .templateAttribute = true) ∧
          ctx.diagnostics = if !can.templateBody && kind = .component then [templateUnavailable]
            else [] := by
      obtain ⟨_ | _⟩ := can
      · cases kind <;> exact ⟨_, _, rfl, rfl, rfl, by simp, rfl⟩
      · exact ⟨_, _, rfl, rfl, rfl, fun _ => rfl, by simp; rfl⟩
    have hdriver : (Driver.mk (Rule.all forbidden) [r] ctx) = .single forbidden r ctx := rfl
    simp only [hregister, hdriver]
    cases kind with
    | script dialect =>
      simp only [Driver.script_single hstring hquasi, Driver.context_single,
        RuleContext.diagnostics_reportAll, hctx]
      simp
    | component =>
      simp only [Driver.component_single hstring hquasi read hattribute, Driver.context_single,
        RuleContext.diagnostics_reportAll, hctx, checkComponent]
      cases can.templateBody <;> simp

end CosmeticLint.Lint
