import CosmeticLint.Proofs.Lint.AttributePlaces
import CosmeticLint.Proofs.Markup.BlockCuts
import CosmeticLint.Proofs.Markup.Nesting
import CosmeticLint.Proofs.Script.Collect
import Mathlib.Data.List.Pairwise

/-! What a check loses that cannot look into templates: the findings that start inside the template,
and no other. Findings of a template lie inside it, those of a script lie in its content, and
between a script with content and a template behind it stands an end tag. -/

namespace CosmeticLint

/-- The start of the span is one of the offsets of the other. -/
def Span.StartsInside (s outer : Span) : Prop := outer.start ≤ s.start ∧ s.start < outer.stop

instance (s outer : Span) : Decidable (s.StartsInside outer) :=
  inferInstanceAs (Decidable (_ ∧ _))

namespace Lint

open FilterList Markup

theorem eq_of_mem_finding {names : List String} {code : Code} {name : String} {span : Span}
    {d : Diagnostic} (h : d ∈ finding names code name span) :
    d = ⟨code, .error, code.message name, span, some name⟩ := by
  rw [finding] at h
  split at h
  · exact List.mem_singleton.1 h
  · cases h

/-! ### Findings of scripts -/

/-- The places that are reported of a script. -/
def reportedSpans : Except Script.Fault Script.Reading → List Span
  | .ok r => r.literals.map (·.span)
  | .error f => [f.span]

/-- All that is reported of a script's text lies within the text. -/
def ReportsWithin (text : String) (r : Except Script.Fault Script.Reading) : Prop :=
  ∀ s ∈ reportedSpans r, s.start ≤ byteLength text.toList ∧ s.stop ≤ byteLength text.toList

/-- Of a script without text nothing is reported. -/
def SilentOnEmpty (read : ScriptReader) : Prop := ∀ dialect, reportedSpans (read "" dialect) = []

theorem reportsWithin_collect (text : String) (dialect : Script.Dialect) :
    ReportsWithin text (Script.collect text dialect) := by
  have hle := Script.byteLength_withoutMark_le text.toList
  intro s hs
  cases h : Script.recognizer.parse text dialect with
  | ok tree =>
    rw [Script.collect, Script.Parser.collect_of_parse h] at hs
    obtain ⟨l, hl, rfl⟩ := List.mem_map.1 hs
    obtain ⟨n, hn, -, hspan⟩ := Script.mem_filterMap_literal?.1 hl
    obtain ⟨before, written, after, hscript, -, hplace⟩ :=
      Script.locates_recognizer text dialect tree h n hn
    have hbytes := congrArg byteLength hscript
    rw [byteLength_append, byteLength_append] at hbytes
    rw [hspan, hplace]
    simp only [Script.relativeSpan]
    omega
  | error f =>
    rw [Script.collect, Script.Parser.collect_of_fault h] at hs
    rw [List.mem_singleton.1 hs]
    obtain ⟨hstart, hstop⟩ := Script.liesIn_of_recognize h
    simp only [Script.Fault.relative, Script.relativeSpan]
    omega

theorem silentOnEmpty_collect : SilentOnEmpty Script.collect := by
  intro dialect
  cases dialect <;> decide +kernel

/-- A finding of a script is an error, at a place that is reported of the script. -/
theorem exists_of_mem_checkScript {read : ScriptReader} {forbidden : Artifact} {text : String}
    {dialect : Script.Dialect} {offset : Nat} {d : Diagnostic}
    (h : d ∈ checkScript read forbidden text dialect offset) :
    d.severity = .error ∧ ∃ s ∈ reportedSpans (read text dialect), d.span = s.shift offset := by
  cases hr : read text dialect with
  | ok r =>
    simp only [checkScript, hr] at h
    obtain ⟨l, hl, h⟩ := List.mem_flatMap.1 h
    have hspan : l.span ∈ reportedSpans (.ok r) := List.mem_map_of_mem hl
    rw [checkLiteral_eq] at h
    rcases List.mem_append.1 h with h | h
    · rw [eq_of_mem_finding h]
      exact ⟨rfl, l.span, hspan, rfl⟩
    · rw [eq_of_mem_finding h]
      exact ⟨rfl, l.span, hspan, rfl⟩
  | error f =>
    simp only [checkScript, hr] at h
    rw [List.mem_singleton.1 h]
    exact ⟨rfl, f.span, List.mem_singleton_self _, rfl⟩

/-! ### Findings of templates -/

section Attributes

variable {text : List Char} {span : Span} {a : Attribute} {v : AttributeValue} {d : Diagnostic}
  {forbidden : Artifact}

/-- A value has quotes or is not empty. -/
theorem start_lt_stop (h : v.span.slice? text = some v.written) (hname : v.IsName) :
    v.span.start < v.span.stop := by
  obtain ⟨before, after, -, hstart, hstop⟩ := Span.slice?_eq_some_iff.1 h
  have hwritten : v.written ≠ [] := by
    cases hquote : v.quote with
    | none =>
      rw [AttributeValue.written, hquote]
      exact (hname hquote).1
    | some q => simp [AttributeValue.written, hquote]
  have := byteLength_pos hwritten
  omega

/-- A word of a value starts before the value stops: there is a quote behind it, or it is the
value. -/
theorem PointsAtWord.start_lt {classes : List String} (h : PointsAtWord text classes v d)
    (hslice : v.span.slice? text = some v.written) (hname : v.IsName) :
    d.span.start < v.span.stop := by
  have hvalue := start_lt_stop hslice hname
  cases hquote : v.quote with
  | some q =>
    have hinside := h.inside.2
    have hordered := h.proper.ordered
    have hsize := q.char.utf8Size_pos
    simp only [textStop, hquote, Option.elim_some] at hinside
    omega
  | none =>
    obtain ⟨before, word, after, htext, hword, hstart, -, -, -⟩ := h.word
    obtain ⟨hne, hchars⟩ := hname hquote
    have hbehind : word ++ after ≠ [] := by
      intro hnil
      rw [hnil, List.append_nil] at htext
      rw [htext] at hne hchars
      have hspace := hchars ' ' (List.mem_of_getLast? (hword.opens.resolve_left hne))
      exact absurd hspace (by decide)
    have hbytes := byteLength_pos hbehind
    obtain ⟨_, _, -, hvstart, hvstop⟩ := Span.slice?_eq_some_iff.1 hslice
    rw [AttributeValue.written, hquote] at hvstop
    simp only [htext, byteLength_append, textStart, hquote, Option.elim_none]
      at hstart hvstop hbytes
    omega

/-- A finding of an attribute is an error, and starts inside whatever the attribute lies in. -/
theorem checkAttribute_start (h : a.In text span) (hd : d ∈ checkAttribute forbidden a) :
    d.severity = .error ∧ span.start < d.span.start ∧ d.span.start < span.stop := by
  obtain ⟨hlo, hhi⟩ := h.inside
  rw [checkAttribute] at hd
  cases hvalue : a.value with
  | none => simp [hvalue] at hd
  | some v =>
    obtain ⟨-, hslice, hbehind, hstop⟩ := h.faithful.value v hvalue
    -- without quotes the value is a name, so that it does not end where it starts
    have hname := h.isName v hvalue
    have hstart : span.start < v.span.start :=
      Nat.lt_of_lt_of_le hlo (Nat.le_trans (Nat.le_add_right _ _) hbehind)
    have hend : v.span.stop ≤ span.stop := hstop ▸ hhi
    simp only [hvalue] at hd
    split at hd
    · rw [checkId_eq] at hd
      rw [eq_of_mem_finding hd]
      exact ⟨rfl, hstart, Nat.lt_of_lt_of_le (start_lt_stop hslice hname) hend⟩
    · split at hd
      · have hword := pointsAtWord_of_mem hslice hd
        have herror : d.severity = .error := by
          obtain ⟨token, -, htoken⟩ := List.mem_flatMap.1 hd
          rw [checkClassToken_eq] at htoken
          rw [eq_of_mem_finding htoken]
        refine ⟨herror, ?_, Nat.lt_of_lt_of_le (hword.start_lt hslice hname) hend⟩
        exact Nat.lt_of_lt_of_le hstart (Nat.le_trans (Nat.le_add_right _ _) hword.inside.1)
      · cases hd

end Attributes

/-! ### Scripts and the template -/

/-- Whether the diagnostic starts inside the template. -/
def startsInTemplate (c : Component) (d : Diagnostic) : Bool :=
  c.template?.any fun t => d.span.StartsInside t.span

section Component

variable {source : String}

theorem exists_placed_blocks (source : String) : ∃ placed : List (Block × StartTag),
    placed.map (·.1) = (Component.ofText source).blocks ∧
      Placed source.toList (Component.ofText source).problems [] placed ∧
      Span.InOrder 0 (byteLength source.toList) (placed.map (·.1.span)) :=
  (scan_readBlocks false (Cursor.ofText source)).exists_placed (.start source.toList) (by simp)

theorem script_content {b : ScriptBlock} (hb : .script b ∈ (Component.ofText source).blocks) :
    b.contentSpan.stop = b.contentSpan.start + byteLength b.content.toList := by
  have hscan := scan_readBlocks false (Cursor.ofText source)
  obtain ⟨-, -, hslice⟩ := (hscan.faithful (.start source.toList)).1 _ hb
  obtain ⟨before, after, -, hstart, hstop⟩ := Span.slice?_eq_some_iff.1 hslice
  omega

/-- A block that keeps some content is not self-closing, so an end tag stands behind the content, or
nothing. -/
theorem content_followed {problems : List Problem} {tag : StartTag} {b : Block}
    (hcut : b.CutAt source.toList problems tag) (hkeeps : b.keepsContent = true)
    (hcontent : b.contentSpan.start < b.contentSpan.stop) :
    b.contentSpan.stop < b.span.stop ∨ b.contentSpan.stop = byteLength source.toList := by
  have hself : tag.selfClosing = false := by
    cases hself : tag.selfClosing with
    | false => rfl
    | true =>
      have := hcut.selfClosed hself
      omega
  rcases (hcut.raw hkeeps hself).followed with ⟨w, hslice, hbegins⟩ | hend
  · obtain ⟨before, after, -, hstart, hstop⟩ := Span.slice?_eq_some_iff.1 hslice
    have hw : 0 < byteLength w := byteLength_pos (by rintro rfl; cases hbegins)
    simp only at hstart hstop
    omega
  · exact .inr hend

/-- A block has at least its `<`, so that it starts before the source ends. -/
theorem start_lt_of_cutAt {problems : List Problem} {tag : StartTag} {b : Block}
    (hcut : b.CutAt source.toList problems tag) : b.span.start < byteLength source.toList := by
  obtain ⟨inner, hslice⟩ := hcut.slice
  obtain ⟨before, after, htext, hbefore, -⟩ := Span.slice?_eq_some_iff.1 hslice
  have hlength := congrArg byteLength htext
  have hsize := '<'.utf8Size_pos
  simp only [byteLength_append, byteLength_cons] at hlength
  omega

/-- A script with content does not touch the template: its own end tag stands between them, if the
template comes behind it. -/
theorem script_apart {b : ScriptBlock} {t : Template}
    (hb : .script b ∈ (Component.ofText source).blocks)
    (ht : .template t ∈ (Component.ofText source).blocks) (hcontent : b.content ≠ "") :
    b.contentSpan.stop < t.span.start ∨ t.span.stop ≤ b.contentSpan.start := by
  obtain ⟨placed, hblocks, hplaced, horder⟩ := exists_placed_blocks source
  have hapart : (Component.ofText source).blocks.Pairwise fun x y =>
      x.span.stop ≤ y.span.start ∨ y.span.stop ≤ x.span.start := by
    rw [← hblocks, List.pairwise_map]
    exact (List.pairwise_map.1 horder.pairwise).imp Or.inl
  have hsymm : Std.Symm fun x y : Block =>
      x.span.stop ≤ y.span.start ∨ y.span.stop ≤ x.span.start := ⟨fun _ _ => Or.symm⟩
  -- a script is not the template, so the two blocks are different ones of the list
  have hdisjoint := hapart.forall hb ht (by simp)
  have hbytes : 0 < byteLength b.content.toList := byteLength_pos (by simpa using hcontent)
  have hlength := script_content hb
  rw [← hblocks] at hb ht
  obtain ⟨q, hq, hqb⟩ := List.mem_map.1 hb
  obtain ⟨q', hq', hqt⟩ := List.mem_map.1 ht
  have hcut := hplaced.cut q hq
  rw [hqb] at hcut
  obtain ⟨hstart, -, hstop⟩ := hcut.contentInside
  have hfollowed := content_followed hcut rfl (by simp only [Block.contentSpan]; omega)
  have htemplate := start_lt_of_cutAt (hplaced.cut q' hq')
  rw [hqt] at htemplate
  simp only [Block.span, Block.contentSpan] at hdisjoint hstart hstop hfollowed htemplate
  omega

/-- What is found in a script does not start inside the template. -/
theorem not_startsInTemplate_script {read : ScriptReader} {forbidden : Artifact} {b : ScriptBlock}
    (hb : b ∈ (Component.ofText source).scripts)
    (hread : ReportsWithin b.content (read b.content b.dialect)) (hempty : SilentOnEmpty read)
    {d : Diagnostic}
    (hd : d ∈ checkScript read forbidden b.content b.dialect b.contentSpan.start) :
    startsInTemplate (Component.ofText source) d = false := by
  obtain ⟨-, s, hs, hspan⟩ := exists_of_mem_checkScript hd
  obtain ⟨hstart, hstop⟩ := hread s hs
  have hcontent : b.content ≠ "" := by
    intro hnone
    rw [hnone, hempty] at hs
    cases hs
  obtain ⟨x, hx, hxb⟩ := List.mem_filterMap.1 hb
  have hscript : .script b ∈ (Component.ofText source).blocks := by
    cases x <;> cases hxb
    exact hx
  have hlength := script_content hscript
  cases ht : (Component.ofText source).template? with
  | none => simp [startsInTemplate, ht]
  | some t =>
    obtain ⟨y, hy, hyt⟩ := List.exists_of_findSome?_eq_some ht
    rw [Block.eq_of_template? hyt] at hy
    have hapart := script_apart hscript hy hcontent
    simp only [startsInTemplate, ht, Option.any_some, decide_eq_false_iff_not, Span.StartsInside,
      hspan, Span.shift]
    omega

/-- What is found in the template starts inside it. -/
theorem startsInTemplate_template {forbidden : Artifact} {d : Diagnostic}
    (hd : d ∈ ((Component.ofText source).template?.map (checkTemplate forbidden)).getD []) :
    d.severity = .error ∧ startsInTemplate (Component.ofText source) d = true := by
  cases ht : (Component.ofText source).template? with
  | none => simp [ht] at hd
  | some t =>
    rw [checkTemplate_eq_flatMap, templateAttributes, ht, Option.elim_some] at hd
    split at hd
    · obtain ⟨a, ha, hd⟩ := List.mem_flatMap.1 hd
      obtain ⟨herror, hlo, hhi⟩ := checkAttribute_start (Component.attribute_in_template ht a ha) hd
      refine ⟨herror, ?_⟩
      simp only [startsInTemplate, ht, Option.any_some, decide_eq_true_eq]
      exact ⟨Nat.le_of_lt hlo, hhi⟩
    · cases hd

theorem checkComponent_full (read : ScriptReader) (forbidden : Artifact) (source : String) :
    checkComponent read forbidden .full source =
      ((Component.ofText source).scripts.flatMap fun b =>
        checkScript read forbidden b.content b.dialect b.contentSpan.start) ++
      ((Component.ofText source).template?.map (checkTemplate forbidden)).getD [] := rfl

theorem error_of_mem_checkComponent {read : ScriptReader} {forbidden : Artifact} {d : Diagnostic}
    (hd : d ∈ checkComponent read forbidden .full source) : d.severity = .error := by
  rw [checkComponent_full] at hd
  rcases List.mem_append.1 hd with hd | hd
  · obtain ⟨b, -, hd⟩ := List.mem_flatMap.1 hd
    exact (exists_of_mem_checkScript hd).1
  · exact (startsInTemplate_template hd).1

/-- Without the findings that start inside the template, those of the scripts are left. -/
theorem filter_checkComponent {read : ScriptReader} (forbidden : Artifact)
    (hread : ∀ b ∈ (Component.ofText source).scripts,
      ReportsWithin b.content (read b.content b.dialect)) (hempty : SilentOnEmpty read) :
    (checkComponent read forbidden .full source).filter
        (!startsInTemplate (Component.ofText source) ·) =
      (Component.ofText source).scripts.flatMap fun b =>
        checkScript read forbidden b.content b.dialect b.contentSpan.start := by
  rw [checkComponent_full, List.filter_append, List.filter_eq_self.2, List.filter_eq_nil_iff.2,
    List.append_nil]
  · intro d hd
    simp [(startsInTemplate_template hd).2]
  · intro d hd
    obtain ⟨b, hb, hd⟩ := List.mem_flatMap.1 hd
    simp [not_startsInTemplate_script hb (hread b hb) hempty hd]

end Component

/-! ### Files -/

theorem sortByStart_templateUnavailable (ds : List Diagnostic) :
    sortByStart (templateUnavailable :: ds) = templateUnavailable :: sortByStart ds := by
  have hcons : sortByStart (templateUnavailable :: ds) =
      insertByStart templateUnavailable (sortByStart ds) := rfl
  rw [hcons]
  -- nothing starts before the start of the file
  cases sortByStart ds with
  | nil => rfl
  | cons e es => exact if_pos (Nat.zero_le _)

theorem ofPath?_eq_component_iff {filename : String} :
    FileKind.ofPath? filename = some .component ↔ Path.extension? filename = some "vue" := by
  rw [FileKind.ofPath?]
  cases Path.extension? filename with
  | none => simp
  | some e =>
    rw [Option.bind_some, Option.some_inj]
    constructor
    · intro h
      unfold FileKind.ofExtension? at h
      split at h <;> first | rfl | cases h
    · rintro rfl
      rfl

/-- Without a way to look into templates, a file that is no component is checked as before. In a
component, that is reported first, and then come the diagnostics of the full check but for those
that start inside the template, in the same order. The full check has no warnings. -/
theorem checkWith_scriptOnly (read : ScriptReader) (forbidden : Artifact) (filename source : String) :
    (Path.extension? filename ≠ some "vue" →
      checkWith read forbidden .scriptOnly filename source =
        checkWith read forbidden .full filename source) ∧
    (Path.extension? filename = some "vue" →
      (∀ b ∈ (Component.ofText source).scripts, ReportsWithin b.content (read b.content b.dialect)) →
      SilentOnEmpty read →
      checkWith read forbidden .scriptOnly filename source =
        ⟨.templateParserUnavailable, .warning,
            "Use the latest template parser to lint `<template>` blocks; " ++
              "the current host cannot visit template bodies.", ⟨0, 0⟩, none⟩ ::
          (checkWith read forbidden .full filename source).filter
            (!startsInTemplate (Component.ofText source) ·)) ∧
    ∀ d ∈ checkWith read forbidden .full filename source, d.severity ≠ .warning := by
  refine ⟨fun h => ?_, fun h hread hempty => ?_, ?_⟩
  · rw [checkWith_eq, checkWith_eq]
    cases hkind : FileKind.ofPath? filename with
    | none => rfl
    | some kind =>
      cases kind with
      | script dialect => rfl
      | component => exact absurd (ofPath?_eq_component_iff.1 hkind) h
  · have hkind := ofPath?_eq_component_iff.2 h
    have hscripts := filter_checkComponent forbidden hread hempty
    rw [checkWith_eq, checkWith_eq, hkind]
    simp only [← sortByStart_filter, hscripts]
    exact sortByStart_templateUnavailable _
  · intro d hd
    rw [checkWith_eq] at hd
    have herror : d.severity = .error := by
      split at hd
      · cases hd
      · rw [sortByStart_eq_mergeSort, List.mem_mergeSort] at hd
        exact (exists_of_mem_checkScript hd).1
      · rw [sortByStart_eq_mergeSort, List.mem_mergeSort] at hd
        exact error_of_mem_checkComponent hd
    rw [herror]
    simp

/-- A script without content right before a template that is left open inside, a class that is
empty, and behind the template a script that cannot be read to its end. -/
theorem checkWith_scriptOnly_mixed :
    ∃ source : String,
      source = "<script/><template id=x><p class='y  x'></template><script>'x'</script>" ++
        "<script>(</script>" ∧
      Path.extension? "a.vue" = some "vue" ∧
      (∀ b ∈ (Component.ofText source).scripts,
        ReportsWithin b.content (Script.collect b.content b.dialect)) ∧
      SilentOnEmpty Script.collect ∧
      checkWith Script.collect ⟨["x"], ["x", ""]⟩ .scriptOnly "a.vue" source =
        ⟨.templateParserUnavailable, .warning,
            "Use the latest template parser to lint `<template>` blocks; " ++
              "the current host cannot visit template bodies.", ⟨0, 0⟩, none⟩ ::
          (checkWith Script.collect ⟨["x"], ["x", ""]⟩ .full "a.vue" source).filter
            (!startsInTemplate (Component.ofText source) ·) ∧
      (checkWith Script.collect ⟨["x"], ["x", ""]⟩ .full "a.vue" source).map
          (fun d => (d.code, d.span)) =
        [(.forbiddenId, ⟨22, 23⟩), (.forbiddenClass, ⟨36, 36⟩), (.forbiddenClass, ⟨37, 38⟩),
          (.forbiddenId, ⟨59, 62⟩), (.forbiddenClass, ⟨59, 62⟩), (.parseError, ⟨80, 80⟩)] ∧
      (checkWith Script.collect ⟨["x"], ["x", ""]⟩ .scriptOnly "a.vue" source).map
          (fun d => (d.code, d.span)) =
        [(.templateParserUnavailable, ⟨0, 0⟩), (.forbiddenId, ⟨59, 62⟩), (.forbiddenClass, ⟨59, 62⟩),
          (.parseError, ⟨80, 80⟩)] :=
  ⟨_, rfl, by decide, fun _ _ => reportsWithin_collect _ _, silentOnEmpty_collect,
    (checkWith_scriptOnly Script.collect _ "a.vue" _).2.1 (by decide)
      (fun _ _ => reportsWithin_collect _ _) silentOnEmpty_collect,
    by decide +kernel, by decide +kernel⟩

end Lint

end CosmeticLint
