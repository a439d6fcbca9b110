import CosmeticLint.Proofs.Lint.Dispatch
import CosmeticLint.Proofs.Markup.Attributes
import CosmeticLint.Proofs.Markup.Nodes
import CosmeticLint.Proofs.Text.Split

/-! What a check reports, said without the check: the findings of a component's scripts and
of its template, by recursion over the template's nodes. The check of a component is the
stable sort of this report by the starts of the findings. -/

namespace CosmeticLint.Lint

open FilterList Markup

/-! ### The report -/

/-- What is found of a name: one diagnostic if it is one of the forbidden names. -/
def finding (names : List String) (code : Code) (name : String) (span : Span) : List Diagnostic :=
  if name ∈ names then [⟨code, .error, code.message name, span, some name⟩] else []

section Report

variable (read : ScriptReader) (forbidden : Artifact)

/-- A script block that cannot be read has one finding. In any other, each literal may be a
forbidden id and a forbidden class. -/
def scriptReport (b : ScriptBlock) : List Diagnostic :=
  match read b.content b.dialect with
  | .error f =>
    [⟨.parseError, .error, "Parsing error: " ++ f.message, f.span.shift b.contentSpan.start, none⟩]
  | .ok r => r.literals.flatMap fun l =>
    finding forbidden.ids .forbiddenId l.value (l.span.shift b.contentSpan.start) ++
      finding forbidden.classes .forbiddenClass l.value (l.span.shift b.contentSpan.start)

/-- The words between single spaces of a text that starts at an offset, with their places. -/
def spacedWords (start : Nat) (text : List Char) : List (String × Span) :=
  let words := text.splitOn ' '
  let starts := (words.map fun w => byteLength w + 1).scanl (· + ·) start
  (words.zip starts).map fun (w, s) => (String.ofList w, ⟨s, s + byteLength w⟩)

/-- Where the text of a value starts, behind its quote if it has one. -/
def textStart (v : AttributeValue) : Nat := v.span.start + v.quote.elim 0 (·.char.utf8Size)

/-- An `id` is one name, and a `class` lists names. -/
def attributeReport (a : Attribute) : List Diagnostic :=
  a.value.elim [] fun v =>
    (if sameName a.rawName "id" then
      finding forbidden.ids .forbiddenId (Reference.decode v.text) v.span else []) ++
    (if sameName a.rawName "class" then
      (spacedWords (textStart v) v.text.toList).flatMap fun (word, span) =>
        finding forbidden.classes .forbiddenClass (Reference.decode word) span else [])

mutual

/-- The findings of an element come before those of the nodes inside it. -/
def nodeReport : Node → List Diagnostic
  | .element e children => e.attributes.flatMap (attributeReport forbidden) ++ nodesReport children
  | .text .. => []
  | .comment .. => []

def nodesReport : List Node → List Diagnostic
  | [] => []
  | node :: rest => nodeReport node ++ nodesReport rest

end

def templateReport (t : Template) : List Diagnostic :=
  if t.isHtml then
    t.attributes.flatMap (attributeReport forbidden) ++ nodesReport forbidden t.children
  else []

/-- The findings of a component. Without a way to look into templates, that is reported. -/
def report (can : Capabilities) (c : Component) : List Diagnostic :=
  (if can.templateBody then [] else [⟨.templateParserUnavailable, .warning,
    "Use the latest template parser to lint `<template>` blocks; " ++
      "the current host cannot visit template bodies.", ⟨0, 0⟩, none⟩]) ++
  c.scripts.flatMap (scriptReport read forbidden) ++
  (if can.templateBody then c.template?.elim [] (templateReport forbidden) else [])

end Report

/-! ### Scripts -/

theorem checkLiteral_eq (forbidden : Artifact) (offset : Nat) (l : Script.Literal) :
    checkLiteral forbidden offset l =
      finding forbidden.ids .forbiddenId l.value (l.span.shift offset) ++
        finding forbidden.classes .forbiddenClass l.value (l.span.shift offset) := by
  simp [checkLiteral, checkCandidate, finding, Artifact.isForbiddenId, Artifact.isForbiddenClass,
    Diagnostic.aboutName, Code.severity]

theorem checkScript_eq (read : ScriptReader) (forbidden : Artifact) (b : ScriptBlock) :
    checkScript read forbidden b.content b.dialect b.contentSpan.start =
      scriptReport read forbidden b := by
  unfold checkScript scriptReport
  cases read b.content b.dialect with
  | ok r => exact congrArg r.literals.flatMap (funext (checkLiteral_eq forbidden _))
  | error f =>
    have hmessage : Code.parseError.template ++ ": " = "Parsing error: " := by decide
    simp only [hmessage, Diagnostic.plain, Code.severity]

/-! ### Templates -/

theorem classTokensFrom_eq (start : Nat) (words : List (List Char)) :
    classTokensFrom start words =
      (words.zip ((words.map fun w => byteLength w + 1).scanl (· + ·) start)).map
        fun (w, s) => (String.ofList w, ⟨s, s + byteLength w⟩) := by
  induction words generalizing start with
  | nil => rfl
  | cons w words ih =>
    rw [classTokensFrom, ih, List.map_cons, List.scanl_cons, List.zip_cons_cons, List.map_cons,
      Nat.add_assoc]

theorem classTokens_eq (v : AttributeValue) :
    classTokens v = spacedWords (textStart v) v.text.toList := by
  have hquote : (if v.quote.isSome then 1 else 0) = v.quote.elim 0 (·.char.utf8Size) := by
    rcases v.quote with _ | _ | _ <;> rfl
  rw [classTokens, hquote, classTokensFrom_eq, splitAtChar_eq_splitOn]
  rfl

/-- A name in lower case is compared without regard to case. -/
theorem name_eq_iff (a : Attribute) (name : String)
    (hname : name.toList.map Char.toLower = name.toList) :
    a.name = name ↔ sameName a.rawName name = true := by
  rw [sameName, sameIgnoringCase_iff, hname, ← a.toList_name, String.toList_inj]

theorem checkId_eq (forbidden : Artifact) (v : AttributeValue) :
    checkId forbidden v =
      finding forbidden.ids .forbiddenId (Reference.decode v.text) v.span := by
  simp [checkId, finding, Artifact.isForbiddenId, Diagnostic.aboutName, AttributeValue.decoded,
    Code.severity]

theorem checkClassToken_eq (forbidden : Artifact) (token : String × Span) :
    checkClassToken forbidden token =
      finding forbidden.classes .forbiddenClass (Reference.decode token.1) token.2 := by
  simp [checkClassToken, finding, Artifact.isForbiddenClass, Diagnostic.aboutName, Code.severity]

theorem checkAttribute_eq (forbidden : Artifact) (a : Attribute) :
    checkAttribute forbidden a = attributeReport forbidden a := by
  have hid := name_eq_iff a "id" (by decide)
  have hclass := name_eq_iff a "class" (by decide)
  cases hvalue : a.value with
  | none => simp [checkAttribute, attributeReport, hvalue]
  | some v =>
    simp only [checkAttribute, attributeReport, hvalue, Option.elim_some, ← hid, ← hclass]
    by_cases h : a.name = "id"
    · have hother : ¬ a.name = "class" := by
        rw [h]
        decide
      rw [if_pos h, if_pos h, if_neg hother, List.append_nil, checkId_eq]
    · rw [if_neg h, if_neg h, List.nil_append, classTokens_eq]
      exact congrArg (ite _ · [])
        (congrArg (List.flatMap · _) (funext (checkClassToken_eq forbidden)))

mutual

theorem flatMap_preorder_node (forbidden : Artifact) (node : Node) :
    (node.preorder.flatMap fun e => e.attributes.flatMap (attributeReport forbidden)) =
      nodeReport forbidden node := by
  cases node with
  | element e children =>
    rw [Node.preorder, List.flatMap_cons, flatMap_preorder forbidden children, nodeReport]
  | text => rfl
  | comment => rfl

theorem flatMap_preorder (forbidden : Artifact) (nodes : List Node) :
    ((preorder nodes).flatMap fun e => e.attributes.flatMap (attributeReport forbidden)) =
      nodesReport forbidden nodes := by
  cases nodes with
  | nil => rfl
  | cons node rest =>
    rw [preorder, List.flatMap_append, flatMap_preorder_node forbidden node,
      flatMap_preorder forbidden rest, nodesReport]

end

theorem checkTemplate_eq (forbidden : Artifact) (t : Template) :
    checkTemplate forbidden t = templateReport forbidden t := by
  have hattributes : checkAttribute forbidden = attributeReport forbidden :=
    funext (checkAttribute_eq forbidden)
  rw [checkTemplate, templateReport, hattributes, Template.elements, elements_eq_preorder,
    flatMap_preorder]

/-! ### Components -/

theorem checkComponent_eq (read : ScriptReader) (forbidden : Artifact) (can : Capabilities)
    (source : String) :
    checkComponent read forbidden can source =
      report read forbidden can (Component.ofText source) := by
  have hscripts := funext (checkScript_eq read forbidden)
  have htemplate := funext (checkTemplate_eq forbidden)
  cases hcan : can.templateBody with
  | true =>
    simp only [checkComponent, report, hcan, hscripts, htemplate]
    cases (Component.ofText source).template? <;> rfl
  | false =>
    simp only [checkComponent, report, hcan, hscripts, Bool.false_eq_true, if_false,
      List.append_nil]
    rfl

/-- Diagnostics that start no later. -/
def byStart (a b : Diagnostic) : Bool := a.span.start ≤ b.span.start

theorem byStart_trans (a b c : Diagnostic) (hab : byStart a b = true) (hbc : byStart b c = true) :
    byStart a c = true := by
  simp only [byStart, decide_eq_true_eq] at *
  omega

theorem byStart_total (a b : Diagnostic) : (byStart a b || byStart b a) = true := by
  simp only [byStart, Bool.or_eq_true, decide_eq_true_eq]
  omega

/-- A diagnostic goes behind all that start earlier and before all that do not. -/
theorem insertByStart_append (d : Diagnostic) {before after : List Diagnostic}
    (hbefore : ∀ e ∈ before, (!byStart d e) = true) (hafter : ∀ e ∈ after, byStart d e = true) :
    insertByStart d (before ++ after) = before ++ d :: after := by
  induction before with
  | nil =>
    cases after with
    | nil => rfl
    | cons e after =>
      have he := hafter e (by simp)
      simp only [byStart, decide_eq_true_eq] at he
      exact if_pos he
  | cons e before ih =>
    obtain ⟨he, hbefore⟩ := List.forall_mem_cons.1 hbefore
    simp only [byStart, Bool.not_eq_true', decide_eq_false_iff_not] at he
    rw [List.cons_append, insertByStart, if_neg he, ih hbefore, List.cons_append]

/-- Where the first of some diagnostics goes when they are sorted. -/
theorem mergeSort_byStart_cons (d : Diagnostic) (ds : List Diagnostic) :
    ∃ before after, (d :: ds).mergeSort byStart = before ++ d :: after ∧
      ds.mergeSort byStart = before ++ after ∧ (∀ e ∈ before, (!byStart d e) = true) ∧
      ∀ e ∈ after, byStart d e = true := by
  obtain ⟨before, after, hsort, hrest, hbefore⟩ :=
    List.mergeSort_cons byStart_trans byStart_total d ds
  have hsorted := List.pairwise_mergeSort byStart_trans byStart_total (d :: ds)
  rw [hsort, List.pairwise_append, List.pairwise_cons] at hsorted
  exact ⟨before, after, hsort, hrest, hbefore, hsorted.2.1.1⟩

theorem sortByStart_eq_mergeSort (ds : List Diagnostic) :
    sortByStart ds = ds.mergeSort byStart := by
  induction ds with
  | nil => rw [List.mergeSort_nil]; rfl
  | cons d ds ih =>
    obtain ⟨before, after, hsort, hrest, hbefore, hafter⟩ := mergeSort_byStart_cons d ds
    have hcons : sortByStart (d :: ds) = insertByStart d (sortByStart ds) := rfl
    rw [hcons, ih, hrest, hsort, insertByStart_append d hbefore hafter]

/-- Leaving out diagnostics does not change the order of the others. -/
theorem sortByStart_filter (p : Diagnostic → Bool) (ds : List Diagnostic) :
    sortByStart (ds.filter p) = (sortByStart ds).filter p := by
  induction ds with
  | nil => rfl
  | cons d ds ih =>
    obtain ⟨before, after, hsort, hrest, hbefore, hafter⟩ := mergeSort_byStart_cons d ds
    rw [sortByStart_eq_mergeSort ds, hrest, List.filter_append] at ih
    rw [sortByStart_eq_mergeSort (d :: ds), hsort, List.filter_append]
    cases hd : p d with
    | true =>
      have hcons : sortByStart (d :: ds.filter p) = insertByStart d (sortByStart (ds.filter p)) :=
        rfl
      rw [List.filter_cons_of_pos hd, List.filter_cons_of_pos hd, hcons, ih,
        insertByStart_append d (fun e he => hbefore e (List.mem_filter.1 he).1)
          fun e he => hafter e (List.mem_filter.1 he).1]
    | false =>
      have hdrop : ¬ p d = true := by simp [hd]
      rw [List.filter_cons_of_neg hdrop, List.filter_cons_of_neg hdrop, ih]

/-- The check of a component is its report, sorted by the starts of the diagnostics; those
that start together keep their order. -/
theorem checkWith_component (read : ScriptReader) (forbidden : Artifact) (can : Capabilities)
    {filename : String} (h : Path.extension? filename = some "vue") (source : String) :
    checkWith read forbidden can filename source =
      (report read forbidden can (Component.ofText source)).mergeSort
        fun a b => a.span.start ≤ b.span.start := by
  have hkind : FileKind.ofPath? filename = some .component := by
    rw [FileKind.ofPath?, h]
    rfl
  rw [checkWith_eq, hkind]
  simp only [checkComponent_eq, sortByStart_eq_mergeSort]
  rfl

/-- Two scripts around a template, of which one cannot be read, and an element with the same
attribute twice. -/
theorem checkWith_component_mixed :
    ∃ (read : ScriptReader) (source : String), Path.extension? "a.vue" = some "vue" ∧
      checkWith read ⟨["x"], ["x"]⟩ .full "a.vue" source =
        (report read ⟨["x"], ["x"]⟩ .full (Component.ofText source)).mergeSort
          (fun a b => a.span.start ≤ b.span.start) ∧
      (checkWith read ⟨["x"], ["x"]⟩ .full "a.vue" source).map (fun d => (d.code, d.span)) =
        [(.forbiddenId, ⟨8, 11⟩), (.forbiddenClass, ⟨8, 11⟩), (.forbiddenId, ⟨33, 34⟩),
          (.forbiddenClass, ⟨47, 48⟩), (.forbiddenClass, ⟨56, 57⟩), (.parseError, ⟨81, 82⟩)] :=
  ⟨fun text _ =>
      if text = ")" then .error ⟨"Expression expected", ⟨0, 1⟩⟩
      else .ok ⟨[⟨.string, "x", ⟨0, 3⟩⟩], []⟩,
    "<script>'x'</script><template id=x><p CLASS='y x' class=x></p></template><script>)</script>",
    by decide, checkWith_component _ _ _ (by decide) _, by decide +kernel⟩

end CosmeticLint.Lint
