import CosmeticLint.Markup.Blocks
import CosmeticLint.Proofs.Markup.Bodies

/-! The reading of a component as a scan: text is passed over up to the next `<`, and there
a comment, a stray end tag, a block or a single `<` is read. -/

namespace CosmeticLint.Markup

/-! ### Templates -/

/-- The `lang` that a start tag gives. -/
def StartTag.lang (tag : StartTag) : Option String :=
  (Attribute.find? tag.attributes "lang").bind Attribute.text?

theorem readTemplate_selfClosing {c : Cursor} {tag : Read StartTag}
    (h : tag.value.selfClosing = true) :
    readTemplate c tag = ⟨⟨tag.value.span, Span.empty tag.value.span.stop, tag.value.lang,
      tag.value.attributes, []⟩, tag.problems, tag.after⟩ := by
  rw [readTemplate, if_pos h]
  rfl

theorem readTemplate_html {c : Cursor} {tag : Read StartTag} {body : Body}
    (h : tag.value.selfClosing = false) (hlang : Template.langIsHtml tag.value.lang = true)
    (hbody : Body.read tag.value.name [] tag.after = body) :
    readTemplate c tag = ⟨⟨c.spanTo body.after, ⟨tag.value.span.stop, body.contentStop⟩,
      tag.value.lang, tag.value.attributes, body.nodes⟩, tag.problems ++ body.problems,
      body.after⟩ := by
  subst hbody
  unfold readTemplate
  rw [if_neg (by simp [h])]
  exact if_pos hlang

theorem readTemplate_raw {c : Cursor} {tag : Read StartTag} {content : Read RawText}
    (h : tag.value.selfClosing = false) (hlang : Template.langIsHtml tag.value.lang = false)
    (hcontent : readRawText tag.value.name tag.after = content) :
    readTemplate c tag = ⟨⟨c.spanTo content.after, content.value.span, tag.value.lang,
      tag.value.attributes, []⟩, tag.problems ++ content.problems, content.after⟩ := by
  subst hcontent
  have hlang' : ¬ Template.langIsHtml tag.value.lang = true := by simp [hlang]
  unfold readTemplate
  rw [if_neg (by simp [h])]
  exact if_neg hlang'

theorem lang_readTemplate (c : Cursor) (tag : Read StartTag) :
    (readTemplate c tag).value.lang = tag.value.lang := by
  unfold readTemplate
  dsimp only
  split
  · rfl
  · split <;> rfl

/-- The first block named `template` is one. -/
theorem readBlock_of_sameName {c : Cursor} {r : Read Template}
    (hname : sameName (StartTag.read c).value.name "template" = true)
    (h : readTemplate c (StartTag.read c) = r) :
    readBlock false c = ⟨.template r.value, r.problems, r.after⟩ := by
  subst h
  unfold readBlock
  exact if_pos (by simp [hname])

theorem readBlock_eq_template {d : Cursor} {seen : Bool} {t : Template}
    (h : (readBlock seen d).value = .template t) :
    sameName (StartTag.read d).value.name "template" = true ∧
      readBlock seen d = ⟨.template t, (readTemplate d (StartTag.read d)).problems,
        (readTemplate d (StartTag.read d)).after⟩ ∧
      (readTemplate d (StartTag.read d)).value = t := by
  unfold readBlock at h ⊢
  dsimp only at h ⊢
  split at h
  · rename_i hname
    rw [if_pos hname]
    rw [Bool.and_eq_true] at hname
    cases h
    exact ⟨hname.1, rfl, rfl⟩
  · dsimp only at h
    split at h
    · cases h
    · split at h <;> cases h

theorem Block.eq_of_template? {b : Block} {t : Template} (h : b.template? = some t) :
    b = .template t := by
  cases b with
  | template => exact congrArg _ (Option.some.inj h)
  | script | style | custom => cases h

/-! ### Blocks one after the other -/

/-- The next place outside all blocks where markup can begin. -/
def nextMarkup (c : Cursor) : Cursor := c.skipWhile (· ≠ '<')

theorem nextMarkup_reads (c : Cursor) : ∃ w, c.Reads w (nextMarkup c) :=
  ⟨_, c.reads_skipWhile _⟩

theorem nextMarkup_eq_self {c : Cursor} (h : c.rest.head? = some '<') : nextMarkup c = c := by
  refine (Cursor.Reads.refl c).skipWhile_eq (by simp) fun x hx => ?_
  rw [h] at hx
  cases hx
  rfl

/-- What is reported of an end tag outside all blocks. -/
def strayProblem (c : Cursor) : Problem :=
  ⟨.mismatchedClosingTag "a top-level block"
      (strayEndTag (c.rest.take ((c.rest.takeWhile (· ≠ '>')).length + 1))),
    c.spanTo (c.skipPast '>')⟩

/-- The scan from `c` to the end of the source: the blocks and problems met. -/
inductive Scan : (templateSeen : Bool) → Cursor → List Block → List Problem → Prop
  | done {seen c} (rest : (nextMarkup c).rest = []) : Scan seen c [] []
  | comment {seen c blocks problems} (ahead : ahead (nextMarkup c).rest = .comment)
      (scan : Scan seen (readComment (nextMarkup c)).after blocks problems) :
      Scan seen c blocks ((readComment (nextMarkup c)).problems ++ problems)
  | endTag {seen c blocks problems} (ahead : ahead (nextMarkup c).rest = .endTag)
      (scan : Scan seen ((nextMarkup c).skipPast '>') blocks problems) :
      Scan seen c blocks (strayProblem (nextMarkup c) :: problems)
  | block {seen c block blocks problems} (ahead : ahead (nextMarkup c).rest = .startTag)
      (reads : readBlock seen (nextMarkup c) = block)
      (scan : Scan (seen || block.value.template?.isSome) block.after blocks problems) :
      Scan seen c (block.value :: blocks) (block.problems ++ problems)
  | other {seen c blocks problems} (rest : (nextMarkup c).rest ≠ [])
      (ahead : ahead (nextMarkup c).rest = .other)
      (scan : Scan seen ((nextMarkup c).skip 1) blocks problems) : Scan seen c blocks problems

theorem scan_readBlocks (seen : Bool) (c : Cursor) :
    Scan seen c (readBlocks seen c).1 (readBlocks seen c).2 := by
  fun_induction readBlocks seen c with
  | case1 seen c c' hrest => exact .done hrest
  | case2 seen c c' hrest hahead comment blocks problems hmore ih =>
    rw [hmore] at ih
    exact .comment hahead ih
  | case3 seen c c' hrest hahead after found blocks problems hmore ih =>
    rw [hmore] at ih
    exact .endTag hahead ih
  | case4 seen c c' hrest hahead block blocks problems hmore ih =>
    rw [hmore] at ih
    exact .block hahead rfl ih
  | case5 seen c c' hrest hahead ih => exact .other hrest hahead ih

theorem rest_ne_nil_of_ahead {c : Cursor} {what : Ahead} (h : ahead c.rest = what)
    (hwhat : what ≠ .other) : c.rest ≠ [] := by
  intro hc
  rw [hc] at h
  exact hwhat h.symm

/-- One step of reading blocks, and the reading of what is left. -/
theorem readBlocks_eq (seen : Bool) (c : Cursor) :
    readBlocks seen c =
      if (nextMarkup c).rest = [] then ([], [])
      else
        match ahead (nextMarkup c).rest with
        | .comment =>
          let more := readBlocks seen (readComment (nextMarkup c)).after
          (more.1, (readComment (nextMarkup c)).problems ++ more.2)
        | .endTag =>
          let more := readBlocks seen ((nextMarkup c).skipPast '>')
          (more.1, strayProblem (nextMarkup c) :: more.2)
        | .startTag =>
          let block := readBlock seen (nextMarkup c)
          let more := readBlocks (seen || block.value.template?.isSome) block.after
          (block.value :: more.1, block.problems ++ more.2)
        | .other => readBlocks seen ((nextMarkup c).skip 1) := by
  conv => lhs; rw [readBlocks]
  rfl

/-- The scan is the reading: there is no other from the same place. -/
theorem Scan.readBlocks_eq {seen : Bool} {c : Cursor} {blocks : List Block}
    {problems : List Problem} (h : Scan seen c blocks problems) :
    readBlocks seen c = (blocks, problems) := by
  induction h with
  | done hrest => rw [Markup.readBlocks_eq, if_pos hrest]
  | comment hahead _ ih =>
    rw [Markup.readBlocks_eq, if_neg (rest_ne_nil_of_ahead hahead (by simp)), hahead]
    simp only [ih]
  | endTag hahead _ ih =>
    rw [Markup.readBlocks_eq, if_neg (rest_ne_nil_of_ahead hahead (by simp)), hahead]
    simp only [ih]
  | block hahead hreads _ ih =>
    rw [Markup.readBlocks_eq, if_neg (rest_ne_nil_of_ahead hahead (by simp)), hahead]
    simp only [hreads, ih]
  | other hrest hahead _ ih => rw [Markup.readBlocks_eq, if_neg hrest, hahead, ih]

section OneStep

variable {c : Cursor} {seen : Bool} {blocks : List Block} {problems : List Problem}

theorem Scan.of_rest_eq_nil (h : Scan seen c blocks problems) (hc : c.rest = []) :
    blocks = [] ∧ problems = [] := by
  have hnext : (nextMarkup c).rest = [] := by
    rw [nextMarkup, Cursor.rest_skipWhile, hc]
    rfl
  cases h with
  | done _ => exact ⟨rfl, rfl⟩
  | comment ahead _ => rw [hnext] at ahead; cases ahead
  | endTag ahead _ => rw [hnext] at ahead; cases ahead
  | block ahead _ _ => rw [hnext] at ahead; cases ahead
  | other rest _ _ => exact absurd hnext rest

/-- A block under the cursor is the first block met, and after it the scan goes on. -/
theorem Scan.of_startTag (h : Scan seen c blocks problems) (hc : ahead c.rest = .startTag) :
    ∃ blocks' problems', blocks = (readBlock seen c).value :: blocks' ∧
      problems = (readBlock seen c).problems ++ problems' ∧
      Scan (seen || (readBlock seen c).value.template?.isSome) (readBlock seen c).after
        blocks' problems' := by
  have hnext := nextMarkup_eq_self (head?_of_ahead_eq_startTag hc)
  cases h with
  | done rest =>
    rw [hnext] at rest
    rw [rest] at hc
    cases hc
  | comment ahead _ => rw [hnext, hc] at ahead; cases ahead
  | endTag ahead _ => rw [hnext, hc] at ahead; cases ahead
  | block _ reads scan =>
    rw [hnext] at reads
    subst reads
    exact ⟨_, _, rfl, rfl, scan⟩
  | other _ ahead _ => rw [hnext, hc] at ahead; cases ahead

end OneStep

theorem Component.ofText_eq (text : String) :
    ofText text = ⟨⟨0, byteLength text.toList⟩, (readBlocks false ⟨0, text.toList⟩).1,
      (readBlocks false ⟨0, text.toList⟩).2⟩ := rfl

end CosmeticLint.Markup
