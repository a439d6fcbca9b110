import CosmeticLint.Markup.Body
import CosmeticLint.Text.Blank

/-! Reading a component. Between blocks only comments, stray end tags and text can stand;
text is passed over. -/

namespace CosmeticLint.Markup

/-- The template whose start tag, read at `c`, is `tag`. A body that is not markup is not
taken apart. -/
def readTemplate (c : Cursor) (tag : Read StartTag) : Read Template :=
  let attributes := tag.value.attributes
  let lang := (Attribute.find? attributes "lang").bind Attribute.text?
  if tag.value.selfClosing then
    ⟨⟨tag.value.span, Span.empty tag.value.span.stop, lang, attributes, []⟩, tag.problems,
      tag.after⟩
  else if Template.langIsHtml lang then
    let body := Body.read tag.value.name [] tag.after
    let contentEnd := match body.ending with
      | .closed endTag => endTag.start
      | .implicit | .endOfSource => body.after.offset
    ⟨⟨c.spanTo body.after, ⟨tag.value.span.stop, contentEnd⟩, lang, attributes, body.nodes⟩,
      tag.problems ++ body.problems, body.after⟩
  else
    let content := readRawText tag.value.name tag.after
    ⟨⟨c.spanTo content.after, content.value.span, lang, attributes, []⟩,
      tag.problems ++ content.problems, content.after⟩

/-- The content of a block kept as written; a self-closing tag has none. -/
def readRawBlock (tag : Read StartTag) : Read RawText :=
  if tag.value.selfClosing then ⟨⟨Span.empty tag.value.span.stop, ""⟩, tag.problems, tag.after⟩
  else
    let content := readRawText tag.value.name tag.after
    ⟨content.value, tag.problems ++ content.problems, content.after⟩

/-- Reads the block whose start tag is under the cursor. Only the first block named
`template` is one, so `templateSeen` says whether it was met before. -/
def readBlock (templateSeen : Bool) (c : Cursor) : Read Block :=
  let tag := StartTag.read c
  let name := tag.value.name
  if sameName name "template" && !templateSeen then
    let t := readTemplate c tag
    ⟨.template t.value, t.problems, t.after⟩
  else
    let content := readRawBlock tag
    let span := c.spanTo content.after
    let attributes := tag.value.attributes
    let block : Block :=
      if sameName name "script" then
        .script
          { span
            contentSpan := content.value.span
            content := content.value.text
            dialect := .ofLang ((Attribute.find? attributes "lang").bind Attribute.text?)
            setup := (Attribute.find? attributes "setup").isSome
            attributes }
      else if sameName name "style" then .style ⟨name, span, content.value.span, attributes⟩
      else .custom ⟨name, span, content.value.span, attributes⟩
    ⟨block, content.problems, content.after⟩

theorem length_readTemplate_le (c : Cursor) (tag : Read StartTag) :
    (readTemplate c tag).after.rest.length ≤ tag.after.rest.length := by
  simp only [readTemplate]
  split
  · exact Nat.le_refl _
  · split
    · exact Body.length_read_le ..
    · exact length_readRawText_le ..

theorem length_readRawBlock_le (tag : Read StartTag) :
    (readRawBlock tag).after.rest.length ≤ tag.after.rest.length := by
  simp only [readRawBlock]
  split
  · exact Nat.le_refl _
  · exact length_readRawText_le ..

theorem length_readBlock_lt (templateSeen : Bool) {c : Cursor} (hc : c.rest ≠ []) :
    (readBlock templateSeen c).after.rest.length < c.rest.length := by
  simp only [readBlock]
  split
  · exact Nat.lt_of_le_of_lt (length_readTemplate_le ..) (StartTag.length_read_lt hc)
  · exact Nat.lt_of_le_of_lt (length_readRawBlock_le ..) (StartTag.length_read_lt hc)

/-- What a stray end tag is reported as: its text without `</`, the final `>` and the
blanks around the rest. -/
def strayEndTag (text : List Char) : String :=
  String.ofList (trimBlanks (trimEnd (· == '>') (text.drop 2)))

/-- The blocks and problems from a place outside all blocks to the end. -/
def readBlocks (templateSeen : Bool) (c : Cursor) : List Block × List Problem :=
  let c' := c.skipWhile (· ≠ '<')
  if _hc : c'.rest = [] then ([], [])
  else
    match ahead c'.rest with
    | .comment =>
      let comment := readComment c'
      let (blocks, problems) := readBlocks templateSeen comment.after
      (blocks, comment.problems ++ problems)
    | .endTag =>
      let after := c'.skipPast '>'
      let found := strayEndTag (c'.rest.take ((c'.rest.takeWhile (· ≠ '>')).length + 1))
      let (blocks, problems) := readBlocks templateSeen after
      (blocks, ⟨.mismatchedClosingTag "a top-level block" found, c'.spanTo after⟩ :: problems)
    | .startTag =>
      let block := readBlock templateSeen c'
      let (blocks, problems) :=
        readBlocks (templateSeen || block.value.template?.isSome) block.after
      (block.value :: blocks, block.problems ++ problems)
    | .other => readBlocks templateSeen (c'.skip 1)
termination_by c.rest.length
decreasing_by
  all_goals refine Nat.lt_of_lt_of_le ?_ (c.length_skipWhile_le (· ≠ '<'))
  · exact length_readComment_lt _hc
  · exact Cursor.length_skipPast_lt _hc
  · exact length_readBlock_lt templateSeen _hc
  · exact Cursor.length_skip_lt Nat.zero_lt_one _hc

/-- Reads a component; every text has a reading. -/
def Component.ofText (text : String) : Component :=
  let (blocks, problems) := readBlocks false (Cursor.ofText text)
  ⟨⟨0, byteLength text.toList⟩, blocks, problems⟩

end CosmeticLint.Markup
