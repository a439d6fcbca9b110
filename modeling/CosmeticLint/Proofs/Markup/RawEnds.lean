import CosmeticLint.Proofs.Markup.BlockCuts
import CosmeticLint.Proofs.Markup.LetterCase
import CosmeticLint.Proofs.Markup.Nesting

/-! Where content that is kept as written ends. It ends at the first end tag whose name begins with
the name of its block or element; in a body, by contrast, an end tag closes an element only if the
whole name is the element's. The two agree where the end tag's name goes no further, that is where
a blank, a `>` or the end of the source follows; a longer name cuts the content short. -/

namespace CosmeticLint.Markup

open Cursor (LiesIn)

/-! ### Content of a component -/

/-- Content that is kept as written: the name of its block or element, up to case, the span of the
content, and where the block or element stops. -/
structure RawRegion where
  name : String
  content : Span
  stop : Nat
  deriving Repr, DecidableEq

/-- The content of a raw text element. -/
def Node.rawRegion? : Node → Option RawRegion
  | .element e [.text span _] =>
    if isRawText e.name && !e.selfClosing then some ⟨e.name, span, e.span.stop⟩ else none
  | _ => none

/-- A template that is markup has the content of the raw text elements in it. -/
def Block.rawRegions : Block → List RawRegion
  | .template t =>
    if t.isHtml then (allNodes t.children).filterMap Node.rawRegion?
    else [⟨"template", t.contentSpan, t.span.stop⟩]
  | .script b => [⟨"script", b.contentSpan, b.span.stop⟩]
  | .style b => [⟨b.name, b.contentSpan, b.span.stop⟩]
  | .custom b => [⟨b.name, b.contentSpan, b.span.stop⟩]

def Component.rawRegions (c : Component) : List RawRegion := c.blocks.flatMap Block.rawRegions

/-- The content ends at the end tag under `d`. The name of the tag begins with that of the content;
it is the same name just if a blank, a `>` or nothing follows the part that is. -/
structure RawRegion.EndsAt (text : List Char) (r : RawRegion) (d : Cursor) : Prop where
  liesIn : d.LiesIn text
  offset : d.offset = r.content.stop
  endTag : ahead d.rest = .endTag
  stop : r.stop = (d.skipPast '>').offset
  begins : beginsIgnoringCase r.name.toList (endTagName d).toList = true
  own : sameName (endTagName d) r.name = true ↔
    ∀ x, (d.rest.drop (2 + r.name.length)).head? = some x → isBlank x = true ∨ x = '>'

/-- How far the content goes: up to the first end tag whose name begins with its own, or else to the
end of the source. A self-closing tag has no content, wherever it stands. -/
structure RawRegion.Delimited (text : List Char) (r : RawRegion) : Prop where
  inside : ∀ e : Cursor, e.LiesIn text → r.content.start ≤ e.offset → e.offset < r.content.stop →
    ahead e.rest = .endTag → beginsIgnoringCase r.name.toList (endTagName e).toList = false
  ends : r.content.stop < r.stop → ∃ d, r.EndsAt text d
  runsOn : r.content.stop = r.stop → r.content.start < r.stop → r.stop = byteLength text

/-! ### Names of end tags -/

/-- The characters of an end tag's name. -/
def isEndNameChar (x : Char) : Bool := !(isBlank x || x == '>')

theorem isEndNameChar_eq_false_iff {x : Char} :
    isEndNameChar x = false ↔ isBlank x = true ∨ x = '>' := by
  rw [isEndNameChar, Bool.not_eq_false', Bool.or_eq_true, beq_iff_eq]

theorem caseBlind_isEndNameChar : CaseBlind isEndNameChar := caseBlind_endTagName

/-- A name that end tags can have. -/
def IsEndName (name : String) : Prop := ∀ x ∈ name.toList, isEndNameChar x = true

theorem StartTag.isEndName {c : Cursor} (hlt : c.rest.head? = some '<') :
    IsEndName (read c).value.name := by
  obtain ⟨nameEnd, tokens, h⟩ := spelled_read hlt
  intro x hx
  have hchar := h.nameChars x hx
  simp only [isTagNameChar, Bool.not_eq_true', Bool.or_eq_false_iff] at hchar
  simp [isEndNameChar, hchar]

variable {text : List Char} {name : String} {c d : Cursor}

theorem toList_endTagName {rest : List Char} (h : c.rest = '<' :: '/' :: rest) :
    (endTagName c).toList = rest.takeWhile isEndNameChar := by
  have hskip : (c.skip 2).rest = rest := by simp [Cursor.skip, h]
  rw [endTagName, String.toList_ofList, hskip]
  rfl

/-- What begins with `</` and the name is an end tag whose name begins with the name. -/
theorem begins_endTag_iff (hname : IsEndName name) (c : Cursor) :
    beginsIgnoringCase ('<' :: '/' :: name.toList) c.rest = true ↔
      ahead c.rest = .endTag ∧ beginsIgnoringCase name.toList (endTagName c).toList = true := by
  rw [beginsIgnoringCase_cons_iff rfl]
  constructor
  · rintro ⟨rest, hrest, hbegins⟩
    obtain ⟨rest, rfl, hbegins⟩ := (beginsIgnoringCase_cons_iff rfl).1 hbegins
    rw [toList_endTagName hrest, caseBlind_isEndNameChar.beginsIgnoringCase_takeWhile hname, hrest]
    exact ⟨rfl, hbegins⟩
  · rintro ⟨hahead, hbegins⟩
    obtain ⟨rest, hrest⟩ := ahead_eq_endTag hahead
    refine ⟨'/' :: rest, hrest, (beginsIgnoringCase_cons_iff rfl).2 ⟨rest, rfl, ?_⟩⟩
    rwa [toList_endTagName hrest, caseBlind_isEndNameChar.beginsIgnoringCase_takeWhile hname]
      at hbegins

/-- The name of an end tag that begins with a name is that name if it goes no further. -/
theorem sameName_endTagName_iff (hname : IsEndName name) (hahead : ahead c.rest = .endTag)
    (hbegins : beginsIgnoringCase name.toList (endTagName c).toList = true) :
    sameName (endTagName c) name = true ↔
      ∀ x, (c.rest.drop (2 + name.length)).head? = some x → isBlank x = true ∨ x = '>' := by
  obtain ⟨rest, hrest⟩ := ahead_eq_endTag hahead
  rw [toList_endTagName hrest, caseBlind_isEndNameChar.beginsIgnoringCase_takeWhile hname,
    beginsIgnoringCase_iff] at hbegins
  obtain ⟨w, more, rfl, hsame⟩ := hbegins
  have hlength : w.length = name.length := by
    rw [length_eq_of_same hsame, String.length_toList]
  have hdrop : c.rest.drop (2 + name.length) = more := by
    rw [hrest, ← List.drop_drop]
    show (w ++ more).drop name.length = more
    rw [← hlength, List.drop_left]
  have htake : (w ++ more).takeWhile isEndNameChar = w ++ more.takeWhile isEndNameChar :=
    List.takeWhile_append_of_pos (caseBlind_isEndNameChar.forall_mem_of_same hsame hname)
  have hend : (endTagName c).toList = w ++ more.takeWhile isEndNameChar :=
    (toList_endTagName hrest).trans htake
  rw [hdrop, sameName, hend, sameIgnoringCase_append_iff hsame]
  cases more with
  | nil => simp
  | cons y more =>
    simp only [List.head?_cons, Option.some.injEq, forall_eq', ← isEndNameChar_eq_false_iff]
    cases hy : isEndNameChar y <;> simp [hy]

/-! ### One reading -/

/-- What is searched for stands nowhere in `content`, so no end tag there has such a name. -/
theorem begins_eq_false_inside (hname : IsEndName name) (hc : c.LiesIn text) {content : List Char}
    (hd : c.Reads content d) (hnone : ∀ a b, content = a ++ b → b ≠ [] →
      beginsIgnoringCase ('<' :: '/' :: name.toList) (b ++ d.rest) = false) {e : Cursor}
    (he : e.LiesIn text) (hlo : c.offset ≤ e.offset) (hhi : e.offset < d.offset)
    (hahead : ahead e.rest = .endTag) :
    beginsIgnoringCase name.toList (endTagName e).toList = false := by
  -- The place splits the content, and the search looked there.
  obtain ⟨a, ha⟩ := hc.reads_of_le he hlo
  obtain ⟨b, hb⟩ := he.reads_of_le (hc.reads hd) (Nat.le_of_lt hhi)
  have hsplit : content = a ++ b := List.append_cancel_right (hd.1.symm.trans (ha.trans hb).1)
  have hne : b ≠ [] := by
    rintro rfl
    exact absurd hb.2 (Nat.ne_of_gt hhi)
  have hfalse := hnone a b hsplit hne
  rw [← hb.1, Bool.eq_false_iff, ne_eq, begins_endTag_iff hname] at hfalse
  rw [Bool.eq_false_iff]
  exact fun h => hfalse ⟨hahead, h⟩

theorem readRawText_delimited (hname : IsEndName name) (hc : c.LiesIn text) {r : Read RawText}
    (h : readRawText name c = r) :
    RawRegion.Delimited text ⟨name, r.value.span, r.after.offset⟩ := by
  subst h
  unfold readRawText
  cases hsearch : searchFor (beginsIgnoringCase ('<' :: '/' :: name.toList)) c.rest with
  | none =>
    have hr := c.reads_rest
    have hend := hc.reads hr
    dsimp only
    rw [hr.skip_eq]
    refine ⟨fun e he hlo hhi => ?_, fun hlt => absurd hlt (Nat.lt_irrefl _), fun _ _ => ?_⟩
    · refine begins_eq_false_inside hname hc hr (fun a b hab _ => ?_) he hlo hhi
      rw [List.append_nil]
      exact eq_false_of_searchFor_eq_none hsearch hab
    · exact hend.offset_eq_iff.2 rfl
  | some n =>
    obtain ⟨content, rest, hrest, rfl, hfirst⟩ := exists_isFirst hsearch
    have hr := Cursor.reads_of_rest_eq hrest
    have hd := hc.reads hr
    generalize hoffset : c.offset + byteLength content = offset at hr hd
    obtain ⟨hahead, hbegins⟩ := (begins_endTag_iff hname ⟨offset, rest⟩).1 hfirst.holds
    dsimp only
    rw [hr.skip_eq]
    refine ⟨fun e he hlo hhi => ?_, fun _ => ⟨⟨offset, rest⟩, ?_⟩, fun hstop => ?_⟩
    · exact begins_eq_false_inside hname hc hr hfirst.first he hlo hhi
    · exact ⟨hd, rfl, hahead, rfl, hbegins, sameName_endTagName_iff hname hahead hbegins⟩
    · obtain ⟨tail, htail, -⟩ := endTag_reads hahead
      exact absurd hstop (Nat.ne_of_lt (htail.offset_lt (by simp)))

/-- The same content under a name that differs in case only. -/
theorem RawRegion.Delimited.rename {r : RawRegion} (h : r.Delimited text) {other : String}
    (hsame : sameName r.name other = true) :
    (RawRegion.mk other r.content r.stop).Delimited text := by
  have hbegins (t : List Char) : beginsIgnoringCase r.name.toList t = _ :=
    beginsIgnoringCase_congr hsame
  refine ⟨fun e he hlo hhi hahead => ?_, fun hlt => ?_, h.runsOn⟩
  · rw [← hbegins]
    exact h.inside e he hlo hhi hahead
  · obtain ⟨d, hd⟩ := h.ends hlt
    refine ⟨d, hd.liesIn, hd.offset, hd.endTag, hd.stop, ?_, ?_⟩
    · rw [← hbegins]
      exact hd.begins
    · have hlength : r.name.length = other.length := by
        rw [← String.length_toList, ← String.length_toList, length_eq_of_same hsame]
      rw [← sameName_congr hsame, ← hlength]
      exact hd.own

/-! ### Raw text elements -/

theorem Node.rawRegion?_eq_none {e : Element} {children : List Node}
    (h : isRawText e.name = false) : Node.rawRegion? (.element e children) = none := by
  unfold Node.rawRegion?
  split
  · rename_i heq
    cases heq
    simp [h]
  · rfl

theorem step_rawRegion_delimited (hc : c.LiesIn text) {r : Read Node} (h : step c = .node r) :
    ∀ region ∈ r.value.family.filterMap Node.rawRegion?, region.Delimited text := by
  have hstands := standing_step c
  rw [h] at hstands
  cases hstands with
  | comment hahead =>
    obtain ⟨data, d, ⟨-, heq⟩ | ⟨-, -, heq⟩⟩ := readComment_cases hahead <;>
      simp [heq, Node.family, Node.rawRegion?]
  | text _ => simp [readText, Node.family, Node.rawRegion?]
  | childless _ _ => simp [Node.family, Node.rawRegion?]
  | rawText hahead _ raw hcontent =>
    have hlt := head?_of_ahead_eq_startTag hahead
    obtain ⟨v, -, hr⟩ := StartTag.reads_after hlt
    have hdelimited := readRawText_delimited (StartTag.isEndName hlt) (hc.reads hr) hcontent
    simpa [Node.family, Node.rawRegion?, raw, Cursor.spanTo] using hdelimited

theorem Body.Run.rawRegion_delimited {parent : String} {outer : List String} {b : Body}
    (h : Run parent outer c b) (hc : c.LiesIn text) :
    ∀ region ∈ (allNodes b.nodes).filterMap Node.rawRegion?, region.Delimited text := by
  induction h with
  | endOfSource _ => simp
  | node hrest stands _ ih =>
    obtain ⟨v, -, hv⟩ := (step_faithful hc hrest stands).reads
    rw [Body.prepend, allNodes_append, List.filterMap_append]
    refine List.forall_mem_append.2 ⟨?_, ih (hc.reads hv)⟩
    simpa using step_rawRegion_delimited hc stands
  | @element parent outer c tag inner more stands inside _ ihInside ih =>
    obtain ⟨-, -, hraw⟩ := hasContent_of_opening stands
    obtain ⟨hahead, rfl⟩ := startTag_of_opening stands
    obtain ⟨u, -, hu⟩ := StartTag.reads_after (head?_of_ahead_eq_startTag hahead)
    have hd := hc.reads hu
    obtain ⟨v, hv⟩ := (inside.faithful hd).reads_after
    rw [Body.prepend, allNodes_append, List.filterMap_append]
    refine List.forall_mem_append.2 ⟨?_, ih (hd.reads hv)⟩
    -- The element itself is none: its name is not that of raw text.
    have hnone : Node.rawRegion? (inner.toElement c (StartTag.read c).value) = none :=
      Node.rawRegion?_eq_none hraw
    have hfamily : (inner.toElement c (StartTag.read c).value).family =
        inner.toElement c (StartTag.read c).value :: allNodes inner.nodes := rfl
    rw [allNodes_cons, allNodes_nil, List.append_nil, hfamily, List.filterMap_cons, hnone]
    exact ihInside hd
  | closed _ _ => simp
  | implicit _ _ _ => simp
  | stray stands _ _ _ ih =>
    obtain ⟨hahead, rfl⟩ := endTag_of_closing stands
    obtain ⟨tail, hr, -⟩ := endTag_reads hahead
    exact ih (hc.reads hr)

/-! ### Blocks -/

theorem RawRegion.Delimited.empty (text : List Char) (name : String) (i : Nat) :
    RawRegion.Delimited text ⟨name, Span.empty i, i⟩ where
  inside _ _ hlo hhi := absurd hlo (Nat.not_le.2 hhi)
  ends hlt := absurd hlt (Nat.lt_irrefl _)
  runsOn _ hlt := absurd hlt (Nat.lt_irrefl _)

theorem readRawBlock_delimited (hc : c.LiesIn text) (hlt : c.rest.head? = some '<') :
    RawRegion.Delimited text ⟨(StartTag.read c).value.name,
      (readRawBlock (StartTag.read c)).value.span,
      (readRawBlock (StartTag.read c)).after.offset⟩ := by
  obtain ⟨v, -, hr⟩ := StartTag.reads_after hlt
  unfold readRawBlock
  split
  · rw [StartTag.stop_read hlt]
    exact .empty _ _ _
  · have hdelimited := readRawText_delimited (StartTag.isEndName hlt) (hc.reads hr) rfl
    exact hdelimited

theorem readTemplate_rawRegion_delimited (hc : c.LiesIn text) (hlt : c.rest.head? = some '<')
    (hname : sameName (StartTag.read c).value.name "template" = true) {r : Read Template}
    (h : readTemplate c (StartTag.read c) = r) :
    ∀ region ∈ (Block.template r.value).rawRegions, region.Delimited text := by
  obtain ⟨v, -, hr⟩ := StartTag.reads_after hlt
  cases hself : (StartTag.read c).value.selfClosing with
  | true =>
    rw [readTemplate_selfClosing hself] at h
    subst h
    cases hlang : Template.langIsHtml (StartTag.read c).value.lang with
    | true => simp [Block.rawRegions, Template.isHtml, hlang]
    | false =>
      rw [Block.rawRegions, if_neg (by simp [Template.isHtml, hlang])]
      exact List.forall_mem_singleton.2 (.empty _ _ _)
  | false =>
    cases hlang : Template.langIsHtml (StartTag.read c).value.lang with
    | true =>
      rw [readTemplate_html hself hlang rfl] at h
      subst h
      have hrun := Body.run_read (StartTag.read c).value.name [] (StartTag.read c).after
      rw [Block.rawRegions, Template.isHtml, if_pos hlang]
      exact hrun.rawRegion_delimited (hc.reads hr)
    | false =>
      rw [readTemplate_raw hself hlang rfl] at h
      subst h
      have hdelimited := readRawText_delimited (StartTag.isEndName hlt) (hc.reads hr) rfl
      rw [Block.rawRegions, if_neg (by simp [Template.isHtml, hlang])]
      exact List.forall_mem_singleton.2 (hdelimited.rename hname)

theorem readBlock_rawRegion_delimited (hc : c.LiesIn text) (hlt : c.rest.head? = some '<')
    (seen : Bool) : ∀ region ∈ (readBlock seen c).value.rawRegions, region.Delimited text := by
  cases h : sameName (StartTag.read c).value.name "template" && !seen with
  | true =>
    rw [Bool.and_eq_true, Bool.not_eq_true'] at h
    obtain ⟨hname, rfl⟩ := h
    rw [readBlock_of_sameName hname rfl]
    exact readTemplate_rawRegion_delimited hc hlt hname rfl
  | false =>
    obtain ⟨b, heq, hkept⟩ := readBlock_kept h
    have hdelimited := readRawBlock_delimited hc hlt
    have hspan := hkept.span
    have hcontent := hkept.contentSpan
    rw [heq]
    cases b with
    | template t => cases hkept.template
    | script b =>
      have hname := hkept.script
      refine List.forall_mem_singleton.2 ?_
      rw [show b.contentSpan = _ from hcontent, show b.span = _ from hspan]
      exact hdelimited.rename hname.symm
    | style b =>
      refine List.forall_mem_singleton.2 ?_
      rw [show b.contentSpan = _ from hcontent, show b.span = _ from hspan, hkept.name b.name rfl]
      exact hdelimited
    | custom b =>
      refine List.forall_mem_singleton.2 ?_
      rw [show b.contentSpan = _ from hcontent, show b.span = _ from hspan, hkept.name b.name rfl]
      exact hdelimited

/-- Content that a component keeps as written goes up to the first end tag whose name begins with
the name of its block or element, and the name is the same just if it goes no further. -/
theorem rawRegions_delimited {source : String} {r : RawRegion}
    (hr : r ∈ (Component.ofText source).rawRegions) : r.Delimited source.toList := by
  obtain ⟨b, hb, hr⟩ := List.mem_flatMap.1 hr
  obtain ⟨seen, d, hd, hhead, rfl⟩ :=
    (scan_readBlocks false (Cursor.ofText source)).exists_readBlock (.start source.toList) b hb
  exact readBlock_rawRegion_delimited hd hhead seen r hr

/-- An end tag with a shorter name stays in the content, one in other letters ends it. -/
theorem rawRegions_delimited_textarea :
    let source := "<template><TextArea>a</text></TEXTAREA >b</template>"
    let r : RawRegion := ⟨"TextArea", ⟨20, 28⟩, 40⟩
    r ∈ (Component.ofText source).rawRegions ∧ r.Delimited source.toList := by
  intro source r
  have hr : r ∈ (Component.ofText source).rawRegions := by decide +kernel
  exact ⟨hr, rawRegions_delimited hr⟩

/-- A longer name ends the content too, though it is not that of the block. -/
theorem script_cut_at_longer_name :
    let source := "<script>a</scripts>b</script>"
    (Component.ofText source).rawRegions = [⟨"script", ⟨8, 9⟩, 19⟩] ∧
      (Cursor.at? source 9).map endTagName = some "scripts" ∧
      sameName "scripts" "script" = false := by
  decide +kernel

end CosmeticLint.Markup
