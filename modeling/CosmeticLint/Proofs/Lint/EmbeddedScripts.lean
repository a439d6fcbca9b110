import CosmeticLint.Proofs.Lint.Report
import CosmeticLint.Proofs.Markup.RoundTrip

/-! A script block is checked like a file that holds the same text. The block hands over its
content unchanged, its `lang` picks the dialect that the extension of the file picks, and every
finding is moved by the length of the start tag, whether the script can be read or not. -/

namespace CosmeticLint.Lint

open FilterList Markup

/-! ### Moved diagnostics -/

/-- The same finding in a text that starts at an offset. -/
def Diagnostic.shift (d : Diagnostic) (distance : Nat) : Diagnostic :=
  { d with span := d.span.shift distance }

/-- Moving all diagnostics alike does not change their order. -/
theorem sortByStart_map_shift (distance : Nat) (ds : List Diagnostic) :
    sortByStart (ds.map (·.shift distance)) = (sortByStart ds).map (·.shift distance) := by
  rw [sortByStart_eq_mergeSort, sortByStart_eq_mergeSort, List.map_mergeSort]
  intro a _ b _
  have hstart : a.span.start ≤ b.span.start ↔
      (a.shift distance).span.start ≤ (b.shift distance).span.start := by
    simp only [Diagnostic.shift, Span.shift]
    omega
  simp only [byStart, hstart]

theorem checkLiteral_shift (forbidden : Artifact) (offset : Nat) (l : Script.Literal) :
    checkLiteral forbidden offset l = (checkLiteral forbidden 0 l).map (·.shift offset) := by
  have hspan : (l.span.shift 0).shift offset = l.span.shift offset := by simp [Span.shift]
  simp only [checkLiteral, checkCandidate, List.map_append]
  congr 1
  · split
    · simp [Diagnostic.aboutName, Diagnostic.shift, hspan]
    · rfl
  · split
    · simp [Diagnostic.aboutName, Diagnostic.shift, hspan]
    · rfl

/-- What is found in a script depends on the place of the script by a shift only, also when the
finding is that the script cannot be read. -/
theorem checkScript_shift (read : ScriptReader) (forbidden : Artifact) (text : String)
    (dialect : Script.Dialect) (offset : Nat) :
    checkScript read forbidden text dialect offset =
      (checkScript read forbidden text dialect 0).map (·.shift offset) := by
  unfold checkScript
  cases read text dialect with
  | ok r =>
    simp only [List.map_flatMap]
    exact congrArg r.literals.flatMap (funext (checkLiteral_shift forbidden offset))
  | error f =>
    have hspan : (f.span.shift 0).shift offset = f.span.shift offset := by simp [Span.shift]
    simp [Diagnostic.plain, Diagnostic.shift, hspan]

/-! ### The block -/

/-- The start tag of a script block in a dialect. -/
def scriptStartTag : Script.Dialect → String
  | .javaScript => "<script>"
  | dialect => "<script lang=\"" ++ dialect.extension ++ "\">"

/-- The attributes of that tag. -/
def scriptAttributes : Script.Dialect → List WrittenAttribute
  | .javaScript => []
  | dialect => [⟨"lang", some ⟨some .double, dialect.extension⟩⟩]

theorem toList_scriptStartTag (dialect : Script.Dialect) :
    (scriptStartTag dialect).toList = printTag "script" (scriptAttributes dialect) ++ ['>'] := by
  cases dialect <;> decide

theorem scriptAttributes_wellFormed (dialect : Script.Dialect) :
    ∀ a ∈ scriptAttributes dialect, a.WellFormed := by
  cases dialect <;> decide

/-- The tag names the dialect that it is the tag of. -/
theorem ofLang_scriptAttributes (dialect : Script.Dialect) (offset : Nat) :
    Script.Dialect.ofLang ((Attribute.find?
      (Written.attributesAt offset "script" (scriptAttributes dialect)) "lang").bind
        Attribute.text?) = dialect := by
  have hname : ∀ span value, ((⟨span, "lang", value⟩ : Attribute).name == "lang") = true := by
    intro span value
    show ("lang".toLower == "lang") = true
    decide +kernel
  cases dialect with
  | javaScript => rfl
  | jsx | typeScript | tsx =>
    simp only [scriptAttributes, Written.attributesAt, placeAttributes, WrittenAttribute.place,
      Attribute.find?, List.find?_cons, hname, Option.bind_some, Attribute.text?, Option.map_some]
    decide +kernel

/-- A script block as it is printed. -/
def printScript (dialect : Script.Dialect) (content : String) : List Char :=
  printTag "script" (scriptAttributes dialect) ++
    ('>' :: (content.toList ++ printEndTag "script"))

theorem toList_printScript (dialect : Script.Dialect) (content : String) :
    (scriptStartTag dialect ++ content ++ "</script>").toList = printScript dialect content := by
  have hend : "</script>".toList = printEndTag "script" := by decide
  rw [String.toList_append, String.toList_append, toList_scriptStartTag, hend, printScript]
  simp only [List.append_assoc, List.cons_append, List.nil_append]

/-- What a printed script block is read as: its content starts behind the start tag and is handed
over as it is written. -/
theorem readBlock_printScript {c e : Cursor} {dialect : Script.Dialect} {content : String}
    (hcontent : ¬ "</script".toList <:+: content.toList.map Char.toLower)
    (hr : c.Reads (printScript dialect content) e) :
    ∃ b : ScriptBlock, readBlock false c = ⟨.script b, [], e⟩ ∧ b.content = content ∧
      b.dialect = dialect ∧
      b.contentSpan.start = c.offset + byteLength (scriptStartTag dialect).toList := by
  have hname : IsElementName "script" := by decide
  have hraw : isRawText "script" = true := by decide
  have hlower : ("</".toList ++ "script".toList).map Char.toLower = "</script".toList := by decide
  obtain ⟨start, stop, htag, hinner, hend, hstart⟩ := Written.exists_content hr
  obtain ⟨tagEnd, hopen, hclose⟩ := htag.split
  obtain ⟨tokens, htail⟩ := StartTag.tail_close hclose
  have hread := read_printTag hname (scriptAttributes_wellFormed dialect) hopen htail
  have hcontent := readRawText_printed hraw (by rwa [hlower]) hname.gt_notMem hinner hend
  have hnoTemplate : sameName "script" "template" = false := by decide
  have hscript : sameName "script" "script" = true := by decide
  refine ⟨_, by simp [readBlock, readRawBlock, hread, hcontent, hnoTemplate, hscript]; rfl, rfl,
    ofLang_scriptAttributes dialect c.offset, ?_⟩
  rw [toList_scriptStartTag]
  exact hstart

/-- A component that is one printed script block has that script and no template. -/
theorem ofText_printScript (dialect : Script.Dialect) {content : String}
    (hcontent : ¬ "</script".toList <:+: content.toList.map Char.toLower) :
    ∃ b : ScriptBlock, b.content = content ∧ b.dialect = dialect ∧
      b.contentSpan.start = byteLength (scriptStartTag dialect).toList ∧
      (Component.ofText (scriptStartTag dialect ++ content ++ "</script>")).blocks =
        [.script b] := by
  have hall := Cursor.reads_rest ⟨0, printScript dialect content⟩
  obtain ⟨b, hread, htext, hdialect, hstart⟩ := readBlock_printScript hcontent hall
  obtain ⟨blocks, problems, hblocks, -, hscan⟩ :=
    (scan_readBlocks false ⟨0, printScript dialect content⟩).of_startTag
      (by cases dialect <;> rfl)
  rw [hread] at hblocks hscan
  obtain ⟨rfl, -⟩ := hscan.of_rest_eq_nil rfl
  refine ⟨b, htext, hdialect, by simpa using hstart, ?_⟩
  rw [Component.ofText_eq, toList_printScript]
  exact hblocks

/-! ### The check -/

/-- A component that is one script block is checked like a file of the block's dialect with the
block's content: the findings are the same in the same order, moved by the length of the start
tag. -/
theorem checkWith_scriptBlock (read : ScriptReader) (forbidden : Artifact)
    (dialect : Script.Dialect) (component script content : String)
    (hcomponent : Path.extension? component = some "vue")
    (hscript : Path.extension? script = some dialect.extension)
    (hcontent : ¬ "</script".toList <:+: content.toList.map Char.toLower) :
    checkWith read forbidden .full component (scriptStartTag dialect ++ content ++ "</script>") =
      (checkWith read forbidden .full script content).map
        (·.shift (byteLength (scriptStartTag dialect).toList)) := by
  have hcomponentKind : FileKind.ofPath? component = some .component := by
    rw [FileKind.ofPath?, hcomponent]
    rfl
  have hscriptKind : FileKind.ofPath? script = some (.script dialect) := by
    rw [FileKind.ofPath?, hscript]
    cases dialect <;> rfl
  obtain ⟨b, htext, hdialect, hstart, hblocks⟩ := ofText_printScript dialect hcontent
  have hfindings : checkComponent read forbidden .full
      (scriptStartTag dialect ++ content ++ "</script>") =
        checkScript read forbidden content dialect
          (byteLength (scriptStartTag dialect).toList) := by
    simp only [checkComponent, Component.scripts, Component.template?, hblocks]
    simp [Block.script?, Block.template?, Capabilities.full, htext, hdialect, hstart]
  rw [checkWith_eq, checkWith_eq, hcomponentKind, hscriptKind]
  simp only [hfindings]
  rw [checkScript_shift, sortByStart_map_shift]

/-- A script with the beginning of an end tag in it, and one that cannot be read. -/
theorem checkWith_scriptBlock_typed :
    ∃ read : ScriptReader,
      ¬ "</script".toList <:+: "'x' /* </SCRIP */".toList.map Char.toLower ∧
      scriptStartTag .javaScript ++ "'x' /* </SCRIP */" ++ "</script>" =
        "<script>'x' /* </SCRIP */</script>" ∧
      checkWith read ⟨["x"], ["x"]⟩ .full "x.vue"
          (scriptStartTag .javaScript ++ "'x' /* </SCRIP */" ++ "</script>") =
        (checkWith read ⟨["x"], ["x"]⟩ .full "x.js" "'x' /* </SCRIP */").map (·.shift 8) ∧
      (checkWith read ⟨["x"], ["x"]⟩ .full "x.js" "'x' /* </SCRIP */").map
          (fun d => (d.code, d.span)) =
        [(.forbiddenId, ⟨0, 3⟩), (.forbiddenClass, ⟨0, 3⟩)] ∧
      checkWith read ⟨["x"], ["x"]⟩ .full "x.vue"
          (scriptStartTag .tsx ++ "<any>'x'" ++ "</script>") =
        (checkWith read ⟨["x"], ["x"]⟩ .full "x.tsx" "<any>'x'").map (·.shift 19) ∧
      (checkWith read ⟨["x"], ["x"]⟩ .full "x.tsx" "<any>'x'").map
          (fun d => (d.code, d.message, d.span)) =
        [(.parseError, "Parsing error: Expected '</', got '<eof>'", ⟨8, 8⟩)] := by
  refine ⟨fun _ dialect =>
      if dialect = .tsx then .error ⟨"Expected '</', got '<eof>'", ⟨8, 8⟩⟩
      else .ok ⟨[⟨.string, "x", ⟨0, 3⟩⟩], []⟩, by decide, by decide,
    checkWith_scriptBlock _ _ .javaScript "x.vue" "x.js" "'x' /* </SCRIP */" (by decide)
      (by decide) (by decide), ?_,
    checkWith_scriptBlock _ _ .tsx "x.vue" "x.tsx" "<any>'x'" (by decide) (by decide)
      (by decide), ?_⟩
  all_goals decide +kernel

end CosmeticLint.Lint
