import CosmeticLint.Proofs.Lint.Report
import CosmeticLint.Proofs.Markup.FaithfulComponent
import CosmeticLint.Proofs.Script.Collect

/-! Where the findings of scripts point, if the parser of scripts has its positions right: at the
literal as written, from quote to quote or from delimiter to delimiter. A byte order mark at the
head of a script is not counted in offsets, so behind one every finding points too far to the front
by the length of the mark. -/

namespace CosmeticLint.Lint

open FilterList Markup

/-! ### The scripts of a file -/

/-- A script of a file: its text, its dialect and the offset at which it starts. -/
structure ScriptPart where
  text : String
  dialect : Script.Dialect
  start : Nat
deriving DecidableEq

/-- A script file is one script; a component has those of its script blocks. -/
def scriptParts (filename source : String) : List ScriptPart :=
  match FileKind.ofPath? filename with
  | none => []
  | some (.script dialect) => [⟨source, dialect, 0⟩]
  | some .component => (Component.ofText source).scripts.map fun b =>
    ⟨b.content, b.dialect, b.contentSpan.start⟩

def ScriptPart.findings (read : ScriptReader) (forbidden : Artifact) (part : ScriptPart) :
    List Diagnostic :=
  checkScript read forbidden part.text part.dialect part.start

/-- What is reported of a file besides its scripts. -/
def templateFindings (forbidden : Artifact) (can : Capabilities) (filename source : String) :
    List Diagnostic :=
  match FileKind.ofPath? filename with
  | some .component =>
    if can.templateBody then
      ((Component.ofText source).template?.map (checkTemplate forbidden)).getD []
    else [templateUnavailable]
  | _ => []

theorem sortByStart_perm (ds : List Diagnostic) : (sortByStart ds).Perm ds := by
  rw [sortByStart_eq_mergeSort]
  exact List.mergeSort_perm _ _

theorem checkWith_perm (read : ScriptReader) (forbidden : Artifact) (can : Capabilities)
    (filename source : String) :
    (checkWith read forbidden can filename source).Perm
      ((scriptParts filename source).flatMap (·.findings read forbidden) ++
        templateFindings forbidden can filename source) := by
  rw [checkWith_eq]
  unfold scriptParts templateFindings
  cases FileKind.ofPath? filename with
  | none => exact .refl _
  | some kind =>
    cases kind with
    | script dialect => simpa [ScriptPart.findings] using sortByStart_perm _
    | component =>
      refine (sortByStart_perm _).trans ?_
      simp only [checkComponent, List.flatMap_map, ScriptPart.findings]
      split
      · exact .refl _
      · exact (List.perm_append_singleton _ _).symm

/-- A script stands in its file from its start on. -/
theorem slice?_scriptPart {filename source : String} {part : ScriptPart}
    (h : part ∈ scriptParts filename source) :
    ∃ stop, (Span.mk part.start stop).slice? source.toList = some part.text.toList := by
  unfold scriptParts at h
  split at h
  · cases h
  · cases List.mem_singleton.1 h
    exact ⟨byteLength source.toList, Span.slice?_eq_some_iff.2 ⟨[], [], by simp⟩⟩
  · obtain ⟨b, hb, rfl⟩ := List.mem_map.1 h
    obtain ⟨block, hblock, hscript⟩ := List.mem_filterMap.1 hb
    obtain ⟨hblocks, -⟩ :=
      (scan_readBlocks false (Cursor.ofText source)).faithful (.start source.toList)
    have hfaithful := hblocks block hblock
    cases block with
    | script =>
      cases hscript
      exact ⟨_, hfaithful.2.2⟩
    | template => cases hscript
    | style => cases hscript
    | custom => cases hscript

/-! ### Literals -/

/-- The diagnostic is about a node with a forbidden value. The node is written in the script, less
the mark that the script may begin with, where the parser says, and the span of the diagnostic,
moved behind the mark, slices the file to what is written there. -/
structure PointsAtNode (source : List Char) (forbidden : Artifact) (base : Nat) (part : ScriptPart)
    (d : Diagnostic) (n : Script.Node) : Prop where
  value : ∃ v, n.value = some v ∧ (d.code = .forbiddenId ∧ v ∈ forbidden.ids ∨
    d.code = .forbiddenClass ∧ v ∈ forbidden.classes)
  name : d.name = n.value
  written : ∃ before written after,
    Script.withoutMark part.text.toList = before ++ (written ++ after) ∧
      Script.WrittenAs before after n.category written ∧
      n.span = ⟨base + byteLength before, base + byteLength before + byteLength written⟩ ∧
      (d.span.shift (Script.markLength part.text.toList)).slice? source = some written

theorem mem_checkLiteral {forbidden : Artifact} {offset : Nat} {l : Script.Literal}
    {d : Diagnostic} : d ∈ checkLiteral forbidden offset l ↔
      l.value ∈ forbidden.ids ∧ d = .aboutName .forbiddenId l.value (l.span.shift offset) ∨
        l.value ∈ forbidden.classes ∧
          d = .aboutName .forbiddenClass l.value (l.span.shift offset) := by
  simp [checkLiteral, checkCandidate, Artifact.isForbiddenId, Artifact.isForbiddenClass]

section Nodes

variable {p : Script.Parser} {part : ScriptPart} {tree : Script.Tree} {n : Script.Node}
  {forbidden : Artifact}

/-- Three numberings meet here: that of the parser, which starts at its base behind the mark, that
of the script and that of the file. -/
theorem pointsAtNode_of_mem (hp : p.Locates) {source : List Char} {stop : Nat}
    (hpart : (Span.mk part.start stop).slice? source = some part.text.toList)
    (htree : p.parse part.text part.dialect = .ok tree) (hn : n ∈ tree.nodes) {v : String}
    (hv : n.value = some v) {d : Diagnostic}
    (hd : d ∈ checkLiteral forbidden part.start
      ⟨n.category, v, Script.relativeSpan p.base n.span⟩) :
    PointsAtNode source forbidden p.base part d n := by
  obtain ⟨before, written, after, hscript, hwritten, hspan⟩ := hp _ _ _ htree n hn
  have hslice := Script.slice?_relativeSpan hscript hspan
  have hmoved (s : Span) : (s.shift part.start).shift (Script.markLength part.text.toList) =
      (s.shift (Script.markLength part.text.toList)).shift part.start := by
    simp only [Span.shift, Span.mk.injEq]
    omega
  have hplace : (((Script.relativeSpan p.base n.span).shift part.start).shift
      (Script.markLength part.text.toList)).slice? source = some written := by
    rw [hmoved]
    exact Span.slice?_shift hpart (Span.slice?_shift (Script.slice?_markLength _) hslice)
  rcases mem_checkLiteral.1 hd with ⟨hvalue, rfl⟩ | ⟨hvalue, rfl⟩
  · exact ⟨⟨v, hv, .inl ⟨rfl, hvalue⟩⟩, hv.symm, before, written, after, hscript, hwritten, hspan,
      hplace⟩
  · exact ⟨⟨v, hv, .inr ⟨rfl, hvalue⟩⟩, hv.symm, before, written, after, hscript, hwritten, hspan,
      hplace⟩

/-- The findings of a script that was parsed are those of its nodes that have a value. -/
theorem mem_findings (htree : p.parse part.text part.dialect = .ok tree) {d : Diagnostic} :
    d ∈ part.findings p.collect forbidden ↔ ∃ n ∈ tree.nodes, ∃ v, n.value = some v ∧
      d ∈ checkLiteral forbidden part.start
        ⟨n.category, v, Script.relativeSpan p.base n.span⟩ := by
  rw [ScriptPart.findings, checkScript, Script.Parser.collect_of_parse htree]
  simp only [List.mem_flatMap, Script.mem_filterMap_literal?]
  constructor
  · rintro ⟨l, ⟨n, hn, hv, hl⟩, hd⟩
    exact ⟨n, hn, _, hv, hl ▸ hd⟩
  · rintro ⟨n, hn, v, hv, hd⟩
    exact ⟨_, ⟨n, hn, hv, rfl⟩, hd⟩

/-- A node with a forbidden value has a finding. -/
theorem exists_pointsAtNode (hp : p.Locates) {source : List Char} {stop : Nat}
    (hpart : (Span.mk part.start stop).slice? source = some part.text.toList)
    (htree : p.parse part.text part.dialect = .ok tree) (hn : n ∈ tree.nodes) {v : String}
    (hv : n.value = some v) {code : Code} {span : Span}
    (hd : .aboutName code v span ∈ checkLiteral forbidden part.start
      ⟨n.category, v, Script.relativeSpan p.base n.span⟩) :
    ∃ d ∈ part.findings p.collect forbidden, d.code = code ∧
      PointsAtNode source forbidden p.base part d n :=
  ⟨_, (mem_findings htree).2 ⟨n, hn, v, hv, hd⟩, rfl,
    pointsAtNode_of_mem hp hpart htree hn hv hd⟩

end Nodes

/-- The check of a file reports what its scripts and its template give. A script that cannot be
parsed gives one diagnostic; in any other each points at a string or template part with a forbidden
value, and every one of those has a diagnostic for each list it is on. If the positions of the
parser are right, the span slices the file to the literal as written once it is moved behind a byte
order mark at the head of the script, and as it is where there is none. -/
theorem checkWith_literal_places (p : Script.Parser) (hp : p.Locates) (forbidden : Artifact)
    (can : Capabilities) (filename source : String) :
    (checkWith p.collect forbidden can filename source).Perm
        ((scriptParts filename source).flatMap (·.findings p.collect forbidden) ++
          templateFindings forbidden can filename source) ∧
      ∀ part ∈ scriptParts filename source,
        match p.parse part.text part.dialect with
        | .error _ => (part.findings p.collect forbidden).map (·.code) = [.parseError]
        | .ok tree =>
          (∀ d ∈ part.findings p.collect forbidden,
            ∃ n ∈ tree.nodes, PointsAtNode source.toList forbidden p.base part d n) ∧
          ∀ n ∈ tree.nodes, ∀ v, n.value = some v →
            (v ∈ forbidden.ids → ∃ d ∈ part.findings p.collect forbidden, d.code = .forbiddenId ∧
              PointsAtNode source.toList forbidden p.base part d n) ∧
            (v ∈ forbidden.classes → ∃ d ∈ part.findings p.collect forbidden,
              d.code = .forbiddenClass ∧
                PointsAtNode source.toList forbidden p.base part d n) := by
  refine ⟨checkWith_perm p.collect forbidden can filename source, fun part hpart => ?_⟩
  obtain ⟨stop, hstop⟩ := slice?_scriptPart hpart
  split
  · rename_i f hf
    rw [ScriptPart.findings, checkScript, Script.Parser.collect_of_fault hf]
    rfl
  · rename_i tree htree
    refine ⟨fun d hd => ?_, fun n hn v hv => ⟨fun hid => ?_, fun hclass => ?_⟩⟩
    · obtain ⟨n, hn, v, hv, hd⟩ := (mem_findings htree).1 hd
      exact ⟨n, hn, pointsAtNode_of_mem hp hstop htree hn hv hd⟩
    · exact exists_pointsAtNode hp hstop htree hn hv (mem_checkLiteral.2 (.inl ⟨hid, rfl⟩))
    · exact exists_pointsAtNode hp hstop htree hn hv (mem_checkLiteral.2 (.inr ⟨hclass, rfl⟩))

/-- A string behind a mark, in a script that the recogniser parses. -/
theorem checkWith_literal_places_marked :
    Script.recognizer.Locates ∧
      ∃ d ∈ ScriptPart.findings Script.recognizer.collect ⟨["AC_ad"], []⟩
          ⟨"\ufeff'AC_ad'", .javaScript, 0⟩,
        d.span = ⟨0, 7⟩ ∧
        PointsAtNode "\ufeff'AC_ad'".toList ⟨["AC_ad"], []⟩ 0 ⟨"\ufeff'AC_ad'", .javaScript, 0⟩ d
          ⟨.string, some "AC_ad", ⟨0, 7⟩⟩ := by
  refine ⟨Script.locates_recognizer, ?_⟩
  have hplaces := (checkWith_literal_places Script.recognizer Script.locates_recognizer
    ⟨["AC_ad"], []⟩ .full "e.js" "\ufeff'AC_ad'").2 ⟨"\ufeff'AC_ad'", .javaScript, 0⟩ (by decide)
  have htree : Script.recognizer.parse "\ufeff'AC_ad'" .javaScript =
      .ok ⟨[⟨.string, some "AC_ad", ⟨0, 7⟩⟩], []⟩ := by decide +kernel
  simp only [htree] at hplaces
  obtain ⟨d, hd, -, hpoints⟩ := (hplaces.2 _ (List.mem_singleton_self _) _ rfl).1 (by decide)
  have hspan : ∀ d ∈ ScriptPart.findings Script.recognizer.collect ⟨["AC_ad"], []⟩
      ⟨"\ufeff'AC_ad'", .javaScript, 0⟩, d.span = ⟨0, 7⟩ := by decide +kernel
  exact ⟨d, hd, hspan d hd, hpoints⟩

example : (check ⟨["AC_ad"], ["b"]⟩ .full "a.vue" "<script>`AC_ad$\x7b'b'\x7d`</script>").map
    (fun d => (d.code, d.span)) = [(.forbiddenId, ⟨9, 14⟩), (.forbiddenClass, ⟨16, 19⟩)] := by
  decide +kernel

/-- Behind a mark the span of a string starts and stops three bytes too early. -/
theorem check_behind_mark :
    ∃ d ∈ check ⟨["AC_ad"], []⟩ .full "e.js" "\ufeff'AC_ad'", d.code = .forbiddenId ∧
      d.span.slice? "\ufeff'AC_ad'".toList = some "\ufeff'AC_".toList ∧
      (d.span.shift 3).slice? "\ufeff'AC_ad'".toList = some "'AC_ad'".toList := by
  decide +kernel

end CosmeticLint.Lint
