import CosmeticLint.Proofs.Markup.FaithfulComponent

/-! How a source is cut into blocks. Blocks follow each other without overlap, each begins with
its start tag, and a block that is kept as written reaches to the first end tag of its name, or to
the end of the source and is reported. Names alone say which list a block is in, but for templates,
of which only the first is one. -/

namespace CosmeticLint.Markup

open Cursor (LiesIn)

/-! ### Content up to the first end tag -/

/-- The content holds no end tag of its element. -/
theorem not_infix_readRawText (name : String) (c : Cursor) :
    ¬ ("</".toList ++ name.toList).map Char.toLower <:+:
      (readRawText name c).value.text.toList.map Char.toLower := by
  rw [readRawText]
  split
  · rename_i n hn
    obtain ⟨content, rest, hrest, rfl, -, hfirst⟩ := exists_isFirst hn
    have hr := Cursor.reads_of_rest_eq hrest
    simp only [hr.peek_eq, String.toList_ofList]
    refine not_infix_of_begins_eq_false (by simp) fun a b hab hb => ?_
    have hlater := hfirst a b hab hb
    rw [Bool.eq_false_iff] at hlater ⊢
    intro hbegins
    obtain ⟨w, after, rfl, hsame⟩ := beginsIgnoringCase_iff.1 hbegins
    exact hlater (beginsIgnoringCase_iff.2 ⟨w, after ++ rest, List.append_assoc .., hsame⟩)
  · rename_i hnone
    simp only [c.reads_rest.peek_eq, String.toList_ofList]
    exact not_infix_of_begins_eq_false (by simp) fun a b hab _ =>
      eq_false_of_searchFor_eq_none hnone hab

/-- The content is passed first, then what closes it. -/
theorem readRawText_reads {name : String} (hname : '>' ∉ name.toList) (c : Cursor) :
    ∃ v d w, c.Reads v d ∧ d.Reads w (readRawText name c).after ∧
      (readRawText name c).value.span = c.spanTo d := by
  obtain ⟨v, d, hr, ⟨w, e, hw, -, -, heq⟩ | ⟨-, heq⟩⟩ := readRawText_cases name hname c
  · rw [heq]
    exact ⟨v, d, w, hr, hw, rfl⟩
  · rw [heq]
    exact ⟨v, d, [], hr, .refl d, rfl⟩

/-- Content kept as written, from `contentSpan.start` on in a block that ends at `stop`: it holds no
end tag of its name, and is followed by one that ends the block, or by the end of the source. It
is reported just in the second case. -/
structure RawCut (text : List Char) (problems : List Problem) (name : String) (stop : Nat)
    (contentSpan : Span) : Prop where
  content : ∃ content, contentSpan.slice? text = some content ∧
    ¬ ("</".toList ++ name.toList).map Char.toLower <:+: content.map Char.toLower
  followed : (∃ w, (Span.mk contentSpan.stop stop).slice? text = some w ∧
      beginsIgnoringCase ('<' :: '/' :: name.toList) w = true) ∨
    contentSpan.stop = byteLength text
  reported : contentSpan.stop = byteLength text ↔ ⟨.unclosedTag name, contentSpan⟩ ∈ problems

variable {text : List Char} {c : Cursor}

/-- A start tag is not what is reported of the content behind it. -/
theorem StartTag.not_mem_problems (hlt : c.rest.head? = some '<') (name : String) (span : Span)
    (hspan : (read c).after.offset ≤ span.start) :
    ⟨.unclosedTag name, span⟩ ∉ (read c).problems := by
  obtain ⟨nameEnd, tokens, h⟩ := spelled_read hlt
  obtain ⟨w, hw, hr⟩ := reads_after hlt
  have hlt' := hr.offset_lt hw
  obtain ⟨invalid, hinvalid, hproblems⟩ := h.roles.reported
  have hnone : ⟨.unclosedTag name, span⟩ ∉ invalid := by
    intro hmem
    obtain ⟨t, -, reason, heq⟩ := hinvalid _ hmem
    cases heq
  intro hmem
  rcases hproblems with heq | ⟨heq, -⟩
  · exact hnone (heq ▸ hmem)
  · rw [heq, List.mem_append, List.mem_singleton] at hmem
    rcases hmem with hmem | hmem
    · exact hnone hmem
    · cases hmem
      exact absurd hspan (Nat.not_le.2 hlt')

/-- Content behind a start tag, with all that is reported up to its end. -/
theorem StartTag.rawCut (hc : c.LiesIn text) (hlt : c.rest.head? = some '<')
    {content : Read RawText} (h : readRawText (read c).value.name (read c).after = content) :
    RawCut text ((read c).problems ++ content.problems) (read c).value.name content.after.offset
      content.value.span := by
  obtain ⟨v, -, hv⟩ := reads_after hlt
  have hd := hc.reads hv
  have hfree := not_infix_readRawText (read c).value.name (read c).after
  have hnotTag := not_mem_problems hlt (read c).value.name content.value.span
  obtain ⟨w, e, hr, ⟨endTag, f, hend, hbegins, -, heq⟩ | ⟨hrest, heq⟩⟩ :=
    readRawText_cases (read c).value.name (gt_notMem_name hlt) (read c).after
  · rw [h] at heq
    subst heq
    rw [h] at hfree
    have hne : endTag ≠ [] := by
      rintro rfl
      cases hbegins
    have hbefore : e.offset < byteLength text :=
      Nat.lt_of_lt_of_le (hend.offset_lt hne) ((hd.reads hr).reads hend).offset_le
    refine ⟨⟨w, hd.slice? hr, by simpa using hfree⟩,
      .inl ⟨endTag, (hd.reads hr).slice? hend, hbegins⟩, ?_⟩
    simp only [List.append_nil]
    exact ⟨fun hstop => absurd hstop (Nat.ne_of_lt hbefore),
      fun hmem => absurd hmem (hnotTag (Nat.le_refl _))⟩
  · rw [h] at heq
    subst heq
    rw [h] at hfree
    have hstop := (hd.reads hr).offset_eq_iff.2 hrest
    refine ⟨⟨w, hd.slice? hr, by simpa using hfree⟩, .inr hstop, ?_⟩
    exact ⟨fun _ => by simp, fun _ => hstop⟩

section RawCut

variable {problems first later : List Problem} {name : String} {stop : Nat} {contentSpan : Span}

/-- What is reported of the text in front of a block is not about its content. -/
theorem RawCut.prepend (h : RawCut text problems name stop contentSpan) {start : Nat}
    (hstart : start < contentSpan.start) (hle : contentSpan.start ≤ contentSpan.stop)
    (hfirst : ∀ p ∈ first, p.span.stop ≤ start) :
    RawCut text (first ++ problems) name stop contentSpan := by
  refine ⟨h.content, h.followed, ?_⟩
  rw [h.reported, List.mem_append]
  refine ⟨.inr, fun hmem => hmem.resolve_left fun hmem => ?_⟩
  have hbefore : contentSpan.stop ≤ start := hfirst _ hmem
  omega

/-- What is reported of the text behind a block is about its content only where both end with
the source. -/
theorem RawCut.append (h : RawCut text problems name stop contentSpan)
    (hle : contentSpan.start ≤ contentSpan.stop) (hstop : contentSpan.stop ≤ stop)
    (hlater : ∀ p ∈ later, stop ≤ p.span.start) :
    RawCut text (problems ++ later) name stop contentSpan := by
  refine ⟨h.content, h.followed, ?_⟩
  rw [List.mem_append, ← h.reported]
  refine ⟨.inl, ?_⟩
  rintro (hend | hmem)
  · exact hend
  · have hbehind : stop ≤ contentSpan.start := hlater _ hmem
    rcases h.followed with ⟨w, hw, hbegins⟩ | hend
    · -- The end tag would be empty.
      have hspan : Span.mk contentSpan.stop stop = ⟨stop, stop⟩ := by
        rw [Nat.le_antisymm hstop (Nat.le_trans hbehind hle)]
      obtain ⟨before, after, -, hstart, hlen⟩ := Span.slice?_eq_some_iff.1 (hspan ▸ hw)
      cases w with
      | nil => cases hbegins
      | cons x w =>
        have := x.utf8Size_pos
        rw [byteLength_cons] at hlen
        simp only at hstart hlen
        omega
    · exact hend

end RawCut

/-! ### One block -/

namespace Block

def span : Block → Span
  | template b => b.span
  | script b => b.span
  | style b => b.span
  | custom b => b.span

def contentSpan : Block → Span
  | template b => b.contentSpan
  | script b => b.contentSpan
  | style b => b.contentSpan
  | custom b => b.contentSpan

/-- The name that is stored; of the other blocks the list they are in tells it up to case. -/
def name? : Block → Option String
  | template _ => none
  | script _ => none
  | style b => some b.name
  | custom b => some b.name

/-- Whether the content is kept as written. -/
def keepsContent : Block → Bool
  | template b => !b.isHtml
  | _ => true

/-- The block stands in the text where its start tag is read, its content begins where the tag
ends, and content that is kept as written is cut at the first end tag. -/
structure CutAt (text : List Char) (problems : List Problem) (tag : StartTag) (b : Block) :
    Prop where
  startTag : tag.At text b.span.start
  slice : ∃ inner, b.span.slice? text = some ('<' :: (tag.name.toList ++ inner))
  name : ∀ name, b.name? = some name → name = tag.name
  contentStart : b.contentSpan.start = tag.span.stop
  contentInside : b.span.start < b.contentSpan.start ∧ b.contentSpan.start ≤ b.contentSpan.stop ∧
    b.contentSpan.stop ≤ b.span.stop
  selfClosed : tag.selfClosing = true → b.contentSpan.stop = b.contentSpan.start
  raw : b.keepsContent = true → tag.selfClosing = false →
    RawCut text problems tag.name b.span.stop b.contentSpan

/-- Which list a block is in, where the blocks before it have these start tags: its name says it,
and of the blocks named `template` the first is the template. -/
structure Filed (before : List StartTag) (tag : StartTag) (b : Block) : Prop where
  script : b.script?.isSome = true ↔ sameName tag.name "script" = true
  style : b.style?.isSome = true ↔ sameName tag.name "style" = true
  template : b.template?.isSome = true ↔
    sameName tag.name "template" = true ∧ ∀ t ∈ before, sameName t.name "template" = false
  custom : b.custom?.isSome = true ↔ sameName tag.name "script" = false ∧
    sameName tag.name "style" = false ∧
    ¬ (sameName tag.name "template" = true ∧ ∀ t ∈ before, sameName t.name "template" = false)

theorem CutAt.prepend {tag : StartTag} {b : Block} {problems first : List Problem}
    (h : b.CutAt text problems tag) (hfirst : ∀ p ∈ first, p.span.stop ≤ b.span.start) :
    b.CutAt text (first ++ problems) tag := by
  obtain ⟨hstart, hle, -⟩ := h.contentInside
  exact { h with raw := fun hraw hself => (h.raw hraw hself).prepend hstart hle hfirst }

theorem CutAt.append {tag : StartTag} {b : Block} {problems later : List Problem}
    (h : b.CutAt text problems tag) (hlater : ∀ p ∈ later, b.span.stop ≤ p.span.start) :
    b.CutAt text (problems ++ later) tag := by
  obtain ⟨-, hle, hstop⟩ := h.contentInside
  exact { h with raw := fun hraw hself => (h.raw hraw hself).append hle hstop hlater }

end Block

/-- A block that begins with the start tag under the cursor and stops at `d`, with its content
somewhere between the tag and `d`. -/
theorem StartTag.cutAt (hc : c.LiesIn text) (hlt : c.rest.head? = some '<') {d e : Cursor}
    {v w : List Char} (hd : (read c).after.Reads v d) (he : d.Reads w e) {b : Block}
    {problems : List Problem} (hspan : b.span = c.spanTo e)
    (hcontent : b.contentSpan = (read c).after.spanTo d)
    (hname : ∀ name, b.name? = some name → name = (read c).value.name)
    (hself : (read c).value.selfClosing = true → v = [])
    (hraw : b.keepsContent = true → (read c).value.selfClosing = false →
      RawCut text problems (read c).value.name b.span.stop b.contentSpan) :
    b.CutAt text problems (read c).value := by
  have htagged := StartTag.tagged hc hlt (hd.trans he)
  obtain ⟨u, hu, hr⟩ := reads_after hlt
  refine ⟨⟨c, hc, by rw [hspan]; rfl, rfl⟩, by rw [hspan]; exact htagged.slice, hname, ?_, ?_, ?_,
    hraw⟩
  · rw [hcontent, span_read hlt]
    rfl
  · rw [hspan, hcontent]
    exact ⟨hr.offset_lt hu, hd.offset_le, he.offset_le⟩
  · intro hclosed
    rw [hself hclosed] at hd
    rw [hcontent]
    exact hd.2

theorem readTemplate_cut (hc : c.LiesIn text) (hlt : c.rest.head? = some '<') {r : Read Template}
    (h : readTemplate c (StartTag.read c) = r) :
    (Block.template r.value).CutAt text r.problems (StartTag.read c).value ∧
      r.value.span = c.spanTo r.after := by
  have hspan := StartTag.span_read hlt
  obtain ⟨v, hv, hr⟩ := StartTag.reads_after hlt
  cases hself : (StartTag.read c).value.selfClosing with
  | true =>
    rw [readTemplate_selfClosing hself] at h
    subst h
    refine ⟨StartTag.cutAt hc hlt (.refl _) (.refl _) hspan ?_ (by simp [Block.name?])
      (fun _ => rfl) ?_, hspan⟩
    · simp only [Block.contentSpan, hspan]
      rfl
    · intro _ hgoesOn
      rw [hself] at hgoesOn
      cases hgoesOn
  | false =>
    cases hlang : Template.langIsHtml (StartTag.read c).value.lang with
    | true =>
      rw [readTemplate_html hself hlang rfl] at h
      subst h
      have hbody := (Body.run_read (StartTag.read c).value.name [] (StartTag.read c).after).faithful
        (hc.reads hr)
      obtain ⟨u, e, w, hu, hstop, hw⟩ := hbody.reads
      refine ⟨StartTag.cutAt hc hlt hu hw rfl ?_ (by simp [Block.name?]) (by simp [hself]) ?_, rfl⟩
      · simp only [Block.contentSpan, hspan, ← hstop]
        rfl
      · intro hkeeps _
        simp [Block.keepsContent, Template.isHtml, hlang] at hkeeps
    | false =>
      rw [readTemplate_raw hself hlang rfl] at h
      subst h
      obtain ⟨u, e, w, hu, hw, hcontent⟩ :=
        readRawText_reads (StartTag.gt_notMem_name hlt) (StartTag.read c).after
      exact ⟨StartTag.cutAt hc hlt hu hw rfl hcontent (by simp [Block.name?]) (by simp [hself])
        fun _ _ => StartTag.rawCut hc hlt rfl, rfl⟩

/-- The block that `b` is when it is not the template. -/
structure Block.Kept (tag : StartTag) (span contentSpan : Span) (b : Block) : Prop where
  span : b.span = span
  contentSpan : b.contentSpan = contentSpan
  name : ∀ name, b.name? = some name → name = tag.name
  keeps : b.keepsContent = true
  template : b.template?.isSome = false
  script : b.script?.isSome = sameName tag.name "script"
  style : b.style?.isSome = (!sameName tag.name "script" && sameName tag.name "style")
  custom : b.custom?.isSome = (!sameName tag.name "script" && !sameName tag.name "style")

theorem readBlock_kept {seen : Bool}
    (h : (sameName (StartTag.read c).value.name "template" && !seen) = false) :
    ∃ b, readBlock seen c = ⟨b, (readRawBlock (StartTag.read c)).problems,
        (readRawBlock (StartTag.read c)).after⟩ ∧
      b.Kept (StartTag.read c).value (c.spanTo (readRawBlock (StartTag.read c)).after)
        (readRawBlock (StartTag.read c)).value.span := by
  unfold readBlock
  dsimp only
  rw [if_neg (by simp [h])]
  refine ⟨_, rfl, ?_⟩
  cases hscript : sameName (StartTag.read c).value.name "script" with
  | true =>
    rw [if_pos rfl]
    exact ⟨rfl, rfl, by simp [Block.name?], rfl, rfl, hscript.symm, by simp [Block.style?, hscript],
      by simp [Block.custom?, hscript]⟩
  | false =>
    rw [if_neg (by simp)]
    cases hstyle : sameName (StartTag.read c).value.name "style" with
    | true =>
      rw [if_pos rfl]
      exact ⟨rfl, rfl, by simp [Block.name?], rfl, rfl, hscript.symm,
        by simp [Block.style?, hscript, hstyle], by simp [Block.custom?, hscript, hstyle]⟩
    | false =>
      rw [if_neg (by simp)]
      exact ⟨rfl, rfl, by simp [Block.name?], rfl, rfl, hscript.symm,
        by simp [Block.style?, hscript, hstyle], by simp [Block.custom?, hscript, hstyle]⟩

theorem Block.Kept.cutAt (hc : c.LiesIn text) (hlt : c.rest.head? = some '<') {b : Block}
    (h : b.Kept (StartTag.read c).value (c.spanTo (readRawBlock (StartTag.read c)).after)
      (readRawBlock (StartTag.read c)).value.span) :
    b.CutAt text (readRawBlock (StartTag.read c)).problems (StartTag.read c).value := by
  have hspan := StartTag.span_read hlt
  cases hself : (StartTag.read c).value.selfClosing with
  | true =>
    have hempty : readRawBlock (StartTag.read c) =
        ⟨⟨Span.empty (StartTag.read c).value.span.stop, ""⟩, (StartTag.read c).problems,
          (StartTag.read c).after⟩ := if_pos hself
    rw [hempty] at h ⊢
    refine StartTag.cutAt hc hlt (.refl _) (.refl _) h.span ?_ h.name (fun _ => rfl) ?_
    · rw [h.contentSpan, hspan]
      rfl
    · intro _ hgoesOn
      rw [hself] at hgoesOn
      cases hgoesOn
  | false =>
    have hcontent : readRawBlock (StartTag.read c) =
        ⟨(readRawText (StartTag.read c).value.name (StartTag.read c).after).value,
          (StartTag.read c).problems ++
            (readRawText (StartTag.read c).value.name (StartTag.read c).after).problems,
          (readRawText (StartTag.read c).value.name (StartTag.read c).after).after⟩ :=
      if_neg (by simp [hself])
    rw [hcontent] at h ⊢
    obtain ⟨u, e, w, hu, hw, hvalue⟩ :=
      readRawText_reads (StartTag.gt_notMem_name hlt) (StartTag.read c).after
    refine StartTag.cutAt hc hlt hu hw h.span (h.contentSpan.trans hvalue) h.name (by simp [hself])
      fun _ _ => ?_
    rw [h.span, h.contentSpan]
    exact StartTag.rawCut hc hlt rfl

/-- A block read at `c` is cut out of the text there, and ends where the reading goes on. -/
theorem readBlock_cut (hc : c.LiesIn text) (hlt : c.rest.head? = some '<') (seen : Bool) :
    (readBlock seen c).value.CutAt text (readBlock seen c).problems (StartTag.read c).value ∧
      (readBlock seen c).value.span = c.spanTo (readBlock seen c).after := by
  cases h : sameName (StartTag.read c).value.name "template" && !seen with
  | true =>
    rw [Bool.and_eq_true, Bool.not_eq_true'] at h
    obtain ⟨hname, rfl⟩ := h
    rw [readBlock_of_sameName hname rfl]
    exact readTemplate_cut hc hlt rfl
  | false =>
    obtain ⟨b, heq, hkept⟩ := readBlock_kept h
    rw [heq]
    exact ⟨hkept.cutAt hc hlt, hkept.span⟩

/-! ### Which list a block is in -/

/-- A name is at most one of two words that differ. -/
theorem sameName_eq_false_of_sameName {name word other : String} (h : sameName name word = true)
    (hother : sameName other word = false) : sameName name other = false := by
  rw [sameName_comm, sameName_congr h, hother]

/-- The list is told by the name and by whether a template was met before. -/
theorem readBlock_filed {seen : Bool} {before : List StartTag}
    (hseen : seen = false ↔ ∀ t ∈ before, sameName t.name "template" = false) (c : Cursor) :
    (readBlock seen c).value.Filed before (StartTag.read c).value := by
  have hscriptStyle : sameName "style" "script" = false := by decide
  have hscriptTemplate : sameName "script" "template" = false := by decide
  have hstyleTemplate : sameName "style" "template" = false := by decide
  cases h : sameName (StartTag.read c).value.name "template" && !seen with
  | true =>
    rw [Bool.and_eq_true, Bool.not_eq_true'] at h
    obtain ⟨hname, rfl⟩ := h
    have hscript := sameName_eq_false_of_sameName hname hscriptTemplate
    have hstyle := sameName_eq_false_of_sameName hname hstyleTemplate
    rw [readBlock_of_sameName hname rfl]
    refine ⟨?_, ?_, ?_, ?_⟩
    · simp [Block.script?, hscript]
    · simp [Block.style?, hstyle]
    · simpa [Block.template?, hname] using hseen.1 rfl
    · simpa [Block.custom?, hscript, hstyle, hname] using hseen.1 rfl
  | false =>
    obtain ⟨b, heq, hkept⟩ := readBlock_kept h
    have hnotFirst : ¬ (sameName (StartTag.read c).value.name "template" = true ∧
        ∀ t ∈ before, sameName t.name "template" = false) := by
      rintro ⟨hname, hbefore⟩
      rw [hname, hseen.2 hbefore] at h
      cases h
    rw [heq]
    refine ⟨by rw [hkept.script], ?_, ?_, ?_⟩
    · rw [hkept.style, Bool.and_eq_true, Bool.not_eq_true']
      refine ⟨And.right, fun hstyle => ⟨?_, hstyle⟩⟩
      exact sameName_eq_false_of_sameName hstyle (by rw [sameName_comm, hscriptStyle])
    · simp only [hkept.template, Bool.false_eq_true, false_iff]
      exact hnotFirst
    · rw [hkept.custom, Bool.and_eq_true, Bool.not_eq_true', Bool.not_eq_true']
      exact ⟨fun hnone => ⟨hnone.1, hnone.2, hnotFirst⟩, fun hnone => ⟨hnone.1, hnone.2.1⟩⟩

/-! ### All blocks -/

/-- Blocks with their start tags, behind blocks with the start tags `before`. -/
structure Placed (text : List Char) (problems : List Problem) (before : List StartTag)
    (placed : List (Block × StartTag)) : Prop where
  cut : ∀ q ∈ placed, q.1.CutAt text problems q.2
  filed : ∀ earlier b tag later, placed = earlier ++ (b, tag) :: later →
    b.Filed (before ++ earlier.map (·.2)) tag

theorem Placed.prepend {problems first : List Problem} {before : List StartTag}
    {placed : List (Block × StartTag)} {lo hi : Nat} (h : Placed text problems before placed)
    (horder : Span.InOrder lo hi (placed.map (·.1.span)))
    (hfirst : ∀ p ∈ first, p.span.stop ≤ lo) : Placed text (first ++ problems) before placed := by
  refine ⟨fun q hq => (h.cut q hq).prepend fun p hp => ?_, h.filed⟩
  exact Nat.le_trans (hfirst p hp) (horder.bounds _ (List.mem_map_of_mem hq)).1

/-- A block in front of placed blocks. -/
theorem Placed.cons {problems later : List Problem} {before : List StartTag} {b : Block}
    {tag : StartTag} {placed : List (Block × StartTag)} {hi : Nat}
    (h : Placed text later (before ++ [tag]) placed)
    (horder : Span.InOrder b.span.stop hi (placed.map (·.1.span)))
    (hcut : b.CutAt text problems tag) (hfiled : b.Filed before tag)
    (hproblems : ∀ p ∈ problems, p.span.stop ≤ b.span.stop)
    (hlater : ∀ p ∈ later, b.span.stop ≤ p.span.start) :
    Placed text (problems ++ later) before ((b, tag) :: placed) := by
  refine ⟨List.forall_mem_cons.2 ⟨hcut.append hlater, (h.prepend horder hproblems).cut⟩, ?_⟩
  intro earlier b' tag' rest heq
  cases earlier with
  | nil =>
    cases heq
    rwa [List.map_nil, List.append_nil]
  | cons q earlier =>
    cases heq
    have hrest := h.filed earlier b' tag' rest rfl
    rwa [List.append_assoc] at hrest

theorem Scan.exists_placed {seen : Bool} {blocks : List Block} {problems : List Problem}
    (h : Scan seen c blocks problems) (hc : c.LiesIn text) {before : List StartTag}
    (hseen : seen = false ↔ ∀ t ∈ before, sameName t.name "template" = false) :
    ∃ placed : List (Block × StartTag), placed.map (·.1) = blocks ∧
      Placed text problems before placed ∧
      Span.InOrder c.offset (byteLength text) (placed.map (·.1.span)) := by
  induction h generalizing before with
  | done _ => exact ⟨[], rfl, ⟨by simp, by simp⟩, hc.offset_le⟩
  | @comment seen c blocks problems hahead _ ih =>
    obtain ⟨u, hu⟩ := nextMarkup_reads c
    have hcomment := readComment_faithful (hc.reads hu) hahead
    obtain ⟨v, -, hv⟩ := hcomment.reads
    obtain ⟨placed, hblocks, hplaced, horder⟩ := ih ((hc.reads hu).reads hv) hseen
    exact ⟨placed, hblocks, hplaced.prepend horder fun p hp => (hcomment.problems p hp).upper,
      horder.weaken (hu.trans hv).offset_le⟩
  | @endTag seen c blocks problems hahead _ ih =>
    obtain ⟨u, hu⟩ := nextMarkup_reads c
    obtain ⟨tail, hr, -⟩ := endTag_reads hahead
    obtain ⟨placed, hblocks, hplaced, horder⟩ := ih ((hc.reads hu).reads hr) hseen
    have hstray : ∀ p ∈ [strayProblem (nextMarkup c)],
        p.span.stop ≤ ((nextMarkup c).skipPast '>').offset :=
      List.forall_mem_singleton.2 (Nat.le_refl _)
    exact ⟨placed, hblocks, hplaced.prepend horder hstray, horder.weaken (hu.trans hr).offset_le⟩
  | @block seen c block blocks problems hahead hreads hscan ih =>
    subst hreads
    obtain ⟨u, hu⟩ := nextMarkup_reads c
    have hd := hc.reads hu
    have hlt := head?_of_ahead_eq_startTag hahead
    have hblock := readBlock_faithful hd hlt seen
    obtain ⟨v, -, hv⟩ := hblock.reads
    obtain ⟨hcut, hspan⟩ := readBlock_cut hd hlt seen
    have hfiled := readBlock_filed hseen (nextMarkup c)
    have hseen' : (seen || (readBlock seen (nextMarkup c)).value.template?.isSome) = false ↔
        ∀ t ∈ before ++ [(StartTag.read (nextMarkup c)).value],
          sameName t.name "template" = false := by
      rw [Bool.or_eq_false_iff, List.forall_mem_append, List.forall_mem_singleton, ← hseen]
      refine and_congr_right fun hs => ?_
      have htemplate := hfiled.template
      rw [← hseen, and_iff_left hs] at htemplate
      rw [Bool.eq_iff_iff.2 htemplate]
    obtain ⟨placed, hblocks, hplaced, horder⟩ := ih (hd.reads hv) hseen'
    have hstop : (readBlock seen (nextMarkup c)).value.span.stop =
        (readBlock seen (nextMarkup c)).after.offset := by
      rw [hspan]
      rfl
    rw [← hstop] at horder
    refine ⟨_ :: placed, by rw [List.map_cons, hblocks],
      hplaced.cons horder hcut hfiled (fun p hp => ?_) (fun p hp => ?_), ?_, ?_, horder⟩
    · rw [hstop]
      exact (hblock.problems p hp).upper
    · rw [hstop]
      exact ((hscan.faithful (hd.reads hv)).2 p hp).lower
    · dsimp only
      rw [hspan]
      exact hu.offset_le
    · dsimp only
      rw [hspan]
      exact hv.offset_le
  | @other seen c blocks problems _ _ _ ih =>
    obtain ⟨u, hu⟩ := nextMarkup_reads c
    have hskip := Cursor.reads_skip (nextMarkup c) 1
    obtain ⟨placed, hblocks, hplaced, horder⟩ := ih ((hc.reads hu).reads hskip) hseen
    exact ⟨placed, hblocks, hplaced, horder.weaken (hu.trans hskip).offset_le⟩

/-! ### The lists of a component -/

/-- The blocks of a component, list by list. -/
def Component.listed (c : Component) : List Block :=
  c.template?.toList.map .template ++ c.scripts.map .script ++ c.styles.map .style ++
    c.customBlocks.map .custom

section Placed

variable {problems : List Problem} {before : List StartTag} {placed : List (Block × StartTag)}

theorem Placed.tail {b : Block} {tag : StartTag}
    (h : Placed text problems before ((b, tag) :: placed)) :
    Placed text problems (before ++ [tag]) placed := by
  refine ⟨fun q hq => h.cut q (List.mem_cons_of_mem _ hq), fun earlier b' tag' later heq => ?_⟩
  have hfiled := h.filed ((b, tag) :: earlier) b' tag' later (by rw [heq, List.cons_append])
  rwa [List.append_assoc]

/-- Behind a block named `template` there is no template. -/
theorem Placed.filterMap_template? (h : Placed text problems before placed)
    (hbefore : ∃ t ∈ before, sameName t.name "template" = true) :
    (placed.map (·.1)).filterMap Block.template? = [] := by
  obtain ⟨t, ht, hname⟩ := hbefore
  rw [List.filterMap_eq_nil_iff, List.forall_mem_map]
  intro q hq
  obtain ⟨earlier, later, heq⟩ := List.append_of_mem hq
  have hfiled := h.filed earlier q.1 q.2 later heq
  rw [← Option.not_isSome_iff_eq_none, hfiled.template]
  rintro ⟨-, hnone⟩
  rw [hnone t (List.mem_append_left _ ht)] at hname
  cases hname

/-- So there is one template at most. -/
theorem Placed.toList_template? (h : Placed text problems before placed) :
    ((placed.map (·.1)).findSome? Block.template?).toList =
      (placed.map (·.1)).filterMap Block.template? := by
  induction placed generalizing before with
  | nil => rfl
  | cons q placed ih =>
    obtain ⟨b, tag⟩ := q
    rw [List.map_cons, List.findSome?_cons, List.filterMap_cons]
    cases hb : b.template? with
    | none => exact ih h.tail
    | some t =>
      have hname := ((h.filed [] b tag placed rfl).template.1 (by rw [hb]; rfl)).1
      rw [h.tail.filterMap_template? ⟨tag, by simp, hname⟩]
      rfl

end Placed

/-- Every block is in one list. -/
theorem filterMap_perm (blocks : List Block) :
    ((blocks.filterMap Block.template?).map Block.template ++
      (blocks.filterMap Block.script?).map Block.script ++
      (blocks.filterMap Block.style?).map Block.style ++
      (blocks.filterMap Block.custom?).map Block.custom).Perm blocks := by
  induction blocks with
  | nil => exact .nil
  | cons b blocks ih =>
    refine List.Perm.trans ?_ (ih.cons b)
    cases b with
    | template => exact .refl _
    | script =>
      simp only [List.append_assoc]
      exact List.perm_middle
    | style =>
      rw [List.append_assoc, List.append_assoc (_ ++ _) _ _]
      exact List.perm_middle
    | custom => exact List.perm_middle

/-- What is taken from each block stands where the block does, in the same order. -/
theorem pairwise_filterMap {α : Type} {f : Block → Option α} {place : α → Span}
    (hf : ∀ b x, f b = some x → place x = b.span) {blocks : List Block}
    (h : blocks.Pairwise fun a b => a.span.stop ≤ b.span.start) :
    (blocks.filterMap f).Pairwise fun x y => (place x).stop ≤ (place y).start := by
  refine h.filterMap f fun a b hab x hx y hy => ?_
  rw [hf a x hx, hf b y hy]
  exact hab

/-- The blocks of a component do not overlap, and they are those of its four lists, each list in
source order. Every block is cut out of the source behind its start tag, and is in the list that
its name and the names before it tell. -/
theorem blocks_cut (source : String) :
    (∃ placed : List (Block × StartTag),
      placed.map (·.1) = (Component.ofText source).blocks ∧
      Placed source.toList (Component.ofText source).problems [] placed) ∧
    (Component.ofText source).listed.Perm (Component.ofText source).blocks ∧
    (Component.ofText source).blocks.Pairwise (fun a b => a.span.stop ≤ b.span.start) ∧
    (Component.ofText source).scripts.Pairwise (fun a b => a.span.stop ≤ b.span.start) ∧
    (Component.ofText source).styles.Pairwise (fun a b => a.span.stop ≤ b.span.start) ∧
    (Component.ofText source).customBlocks.Pairwise (fun a b => a.span.stop ≤ b.span.start) := by
  have hnone : false = false ↔
      ∀ t ∈ ([] : List StartTag), sameName t.name "template" = false := by simp
  obtain ⟨placed, hblocks, hplaced, horder⟩ :=
    (scan_readBlocks false (Cursor.ofText source)).exists_placed (.start source.toList) hnone
  change placed.map (·.1) = (Component.ofText source).blocks at hblocks
  have hpairwise : (Component.ofText source).blocks.Pairwise
      fun a b => a.span.stop ≤ b.span.start := by
    rw [← hblocks, List.pairwise_map]
    exact List.pairwise_map.1 horder.pairwise
  have htemplate := hplaced.toList_template?
  rw [hblocks] at htemplate
  refine ⟨⟨placed, hblocks, hplaced⟩, ?_, hpairwise, ?_, ?_, ?_⟩
  · rw [Component.listed, Component.template?, htemplate]
    exact filterMap_perm _
  · exact pairwise_filterMap (fun b x hx => by cases b <;> cases hx; rfl) hpairwise
  · exact pairwise_filterMap (fun b x hx => by cases b <;> cases hx; rfl) hpairwise
  · exact pairwise_filterMap (fun b x hx => by cases b <;> cases hx; rfl) hpairwise

end CosmeticLint.Markup
