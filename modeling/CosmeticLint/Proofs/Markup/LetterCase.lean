import CosmeticLint.Proofs.Markup.Scan
import CosmeticLint.Proofs.Text.LetterCase

/-! Reading ignores the case of letters. What is read from a text in lower case is what is read
from the text itself, with every stored string in lower case: the same blocks, nodes and problems
at the same places. Each relation that describes a reading holds in lower case as well, so the
readings that it describes do. -/

namespace CosmeticLint.Markup

/-! ### What is read, in lower case -/

def Token.lower (t : Token) : Token := { t with text := t.text.toLower }

def AttributeValue.lower (v : AttributeValue) : AttributeValue := { v with text := v.text.toLower }

def Attribute.lower (a : Attribute) : Attribute :=
  { a with rawName := a.rawName.toLower, value := a.value.map AttributeValue.lower }

def StartTag.lower (tag : StartTag) : StartTag :=
  { tag with name := tag.name.toLower, attributes := tag.attributes.map Attribute.lower }

def RawText.lower (r : RawText) : RawText := { r with text := r.text.toLower }

def Element.lower (e : Element) : Element :=
  { e with name := e.name.toLower, attributes := e.attributes.map Attribute.lower }

def Node.lower : Node → Node
  | .element e children => .element e.lower (children.map Node.lower)
  | .text span value => .text span value.toLower
  | .comment span data => .comment span data.toLower

def Problem.Kind.lower : Problem.Kind → Problem.Kind
  | unclosedTag name => unclosedTag name.toLower
  | mismatchedClosingTag expected found => mismatchedClosingTag expected.toLower found.toLower
  | unterminatedComment => unterminatedComment
  | invalidAttribute reason => invalidAttribute reason.toLower

def Problem.lower (p : Problem) : Problem := { p with kind := p.kind.lower }

def Template.lower (t : Template) : Template :=
  { t with
    lang := t.lang.map String.toLower
    attributes := t.attributes.map Attribute.lower
    children := t.children.map Node.lower }

def ScriptBlock.lower (b : ScriptBlock) : ScriptBlock :=
  { b with content := b.content.toLower, attributes := b.attributes.map Attribute.lower }

def RawBlock.lower (b : RawBlock) : RawBlock :=
  { b with name := b.name.toLower, attributes := b.attributes.map Attribute.lower }

def Block.lower : Block → Block
  | template b => template b.lower
  | script b => script b.lower
  | style b => style b.lower
  | custom b => custom b.lower

/-- The component with every string in lower case; its places, flags and dialects stay. -/
def Component.lower (c : Component) : Component :=
  { c with blocks := c.blocks.map Block.lower, problems := c.problems.map Problem.lower }

/-- What was read, given its lower case, at the same place in the text in lower case. -/
def Read.lower {α : Type} (lower : α → α) (r : Read α) : Read α :=
  ⟨lower r.value, r.problems.map Problem.lower, r.after.lower⟩

def Step.lower : Step → Step
  | node r => node (r.lower Node.lower)
  | opening r => opening (r.lower StartTag.lower)
  | closing name => closing name.toLower

def Body.lower (b : Body) : Body :=
  ⟨b.nodes.map Node.lower, b.ending, b.problems.map Problem.lower, b.after.lower⟩

/-! ### Kinds of characters -/

theorem caseBlind_isBlank : CaseBlind isBlank := by
  intro x
  simp (disch := decide) only [isBlank, toLower_beq]

theorem caseBlind_isNameChar : CaseBlind isNameChar := by
  intro x
  simp (disch := decide) only [isNameChar, caseBlind_isBlank x, toLower_beq]

theorem caseBlind_isTagNameChar : CaseBlind StartTag.isTagNameChar := by
  intro x
  simp (disch := decide) only [StartTag.isTagNameChar, caseBlind_isBlank x, toLower_beq]

theorem caseBlind_endTagName : CaseBlind fun x => !(isBlank x || x == '>') := by
  intro x
  simp (disch := decide) only [caseBlind_isBlank x, toLower_beq]

theorem ahead_map (text : List Char) : ahead (text.map Char.toLower) = ahead text := by
  have hlt : (text.map Char.toLower).head? = some '<' ↔ text.head? = some '<' := by
    cases text with
    | nil => rfl
    | cons x text => simp [toLower_eq_iff]
  have hletter : (text.map Char.toLower).tail.head?.any Char.isAlpha =
      text.tail.head?.any Char.isAlpha := by
    rw [← List.map_tail, List.head?_map, Option.any_map]
    exact congrArg (Option.any · _) (funext caseBlind_isAlpha)
  have hcomment : "<!--".toList.isPrefixOf (text.map Char.toLower) =
      "<!--".toList.isPrefixOf text := isPrefixOf_map rfl text
  have hend : "</".toList.isPrefixOf (text.map Char.toLower) = "</".toList.isPrefixOf text :=
    isPrefixOf_map rfl text
  simp only [ahead_eq_ite, hcomment, hend, hlt, hletter]

/-! ### Start tags -/

namespace Token

theorem Kind.Spells.lower {kind : Kind} {w rest : List Char} (h : kind.Spells w rest) :
    kind.Spells (w.map Char.toLower) (rest.map Char.toLower) := by
  cases kind with
  | close | selfClose | equals =>
    cases h
    rfl
  | slash =>
    obtain ⟨rfl, hrest⟩ := h
    refine ⟨rfl, fun hhead => hrest ?_⟩
    rw [List.head?_map, Option.map_eq_some_iff] at hhead
    obtain ⟨x, hx, hgt⟩ := hhead
    rw [hx, eq_of_toLower_eq rfl hgt]
  | doubleQuoted =>
    obtain ⟨body, hbody, rfl⟩ := h
    refine ⟨body.map Char.toLower, notMem_map_toLower rfl hbody, ?_⟩
    rw [List.map_cons, List.map_append]
    rfl
  | singleQuoted =>
    obtain ⟨body, hbody, rfl⟩ := h
    refine ⟨body.map Char.toLower, notMem_map_toLower rfl hbody, ?_⟩
    rw [List.map_cons, List.map_append]
    rfl
  | name =>
    obtain ⟨hne, hchars, hends⟩ := h
    exact ⟨by simpa using hne, caseBlind_isNameChar.forall_mem_map hchars,
      caseBlind_isNameChar.head_map_eq_false hends⟩
  | endOfSource =>
    obtain ⟨rfl, rfl⟩ := h
    exact ⟨rfl, rfl⟩
  | invalid =>
    rcases h with rfl | ⟨quote, body, hquote, hbody, rfl, rfl⟩
    · exact .inl rfl
    · have hletter : quote.isAlpha = false := by
        rcases hquote with rfl | rfl <;> rfl
      refine .inr ⟨quote, body.map Char.toLower, hquote, notMem_map_toLower hletter hbody, ?_, rfl⟩
      rw [List.map_cons, toLower_eq_self hletter]

theorem Found.lower {c d : Cursor} {t : Token} (h : Found c t d) :
    Found c.lower t.lower d.lower := by
  obtain ⟨blanks, start, hr, hblank, hw, hspan, hspell⟩ := h
  refine ⟨blanks.map Char.toLower, start.lower, hr.lower, caseBlind_isBlank.forall_mem_map hblank,
    ?_, hspan, ?_⟩
  · rw [Token.lower, toList_toLower]
    exact hw.lower
  · rw [Token.lower, toList_toLower]
    exact hspell.lower

theorem Lexed.lower {c d : Cursor} {ts : List Token} (h : Lexed c ts d) :
    Lexed c.lower (ts.map Token.lower) d.lower := by
  induction h with
  | last found closes => exact .last found.lower closes
  | more found goesOn _ ih => exact .more found.lower goesOn ih

theorem toLower_label (kind : Kind) : kind.label.toLower = kind.label := by
  cases kind <;> decide +kernel

end Token

theorem AttributeValue.ofToken?_lower (t : Token) :
    ofToken? t.lower = (ofToken? t).map AttributeValue.lower := by
  have hquotes : withoutQuotes t.text.toLower = (withoutQuotes t.text).toLower := by
    rw [withoutQuotes, withoutQuotes, toList_toLower, ← List.map_tail, ← List.map_dropLast,
      ofList_map_toLower]
  unfold ofToken?
  simp only [Token.lower]
  cases t.kind <;> simp [AttributeValue.lower, hquotes]

namespace StartTag

theorem unexpected_lower (t : Token) : unexpected t.lower = (unexpected t).lower := by
  have hword : "unexpected ".toLower = "unexpected " := by decide +kernel
  simp only [unexpected, Problem.lower, Problem.Kind.lower, toLower_append, hword,
    Token.toLower_label, Token.lower]

theorem missingValue_lower (t v : Token) :
    missingValue t.lower v.lower = (missingValue t v).lower := by
  have hwords : "missing value for `".toLower = "missing value for `" := by decide +kernel
  have hquote : "`".toLower = "`" := by decide +kernel
  simp only [missingValue, Problem.lower, Problem.Kind.lower, toLower_append, hwords, hquote,
    Token.lower]

theorem Roles.lower {unclosed : Problem} {ts : List Token} {as : List Attribute}
    {ps : List Problem} (h : Roles unclosed ts as ps) :
    Roles unclosed.lower (ts.map Token.lower) (as.map Attribute.lower) (ps.map Problem.lower) := by
  induction h with
  | done => exact .done
  | close kind => exact .close kind
  | cutOff kind => exact .cutOff kind
  | slash kind _ ih => exact .slash kind ih
  | @misplaced t ts as ps kind _ ih =>
    rw [List.map_cons, List.map_cons, ← unexpected_lower]
    exact .misplaced kind ih
  | @bare t ts as ps kind next _ ih =>
    refine .bare (t := t.lower) kind (fun e he => ?_) ih
    rw [List.head?_map, Option.map_eq_some_iff] at he
    obtain ⟨e', he', rfl⟩ := he
    exact next e' he'
  | @loneEquals t e kind equals => exact .loneEquals (t := t.lower) (e := e.lower) kind equals
  | @value t e v ts value as ps kind equals gives _ ih =>
    have hgives : AttributeValue.ofToken? v.lower = some value.lower := by
      rw [AttributeValue.ofToken?_lower, gives]
      rfl
    exact .value (t := t.lower) (e := e.lower) kind equals hgives ih
  | @noValue t e v ts as ps kind equals gives _ ih =>
    have hgives : AttributeValue.ofToken? v.lower = none := by
      rw [AttributeValue.ofToken?_lower, gives]
      rfl
    have hproblem := missingValue_lower t v
    simp only [List.map_cons, ← hproblem]
    exact .noValue (t := t.lower) (e := e.lower) kind equals hgives ih

theorem Spelled.lower {c nameEnd : Cursor} {r : Read StartTag} {tokens : List Token}
    (h : Spelled c r nameEnd tokens) :
    Spelled c.lower (r.lower StartTag.lower) nameEnd.lower (tokens.map Token.lower) where
  name := by
    have hname := h.name.lower
    rw [List.map_cons, ← toList_toLower] at hname
    exact hname
  nameChars := by
    simp only [Read.lower, StartTag.lower, toList_toLower]
    exact caseBlind_isTagNameChar.forall_mem_map h.nameChars
  nameEnds := caseBlind_isTagNameChar.head_map_eq_false h.nameEnds
  lexed := h.lexed.lower
  roles := h.roles.lower
  span := h.span
  selfClosing := by
    simp only [Read.lower, StartTag.lower, h.selfClosing, List.getLast?_map, Option.any_map]
    rfl

theorem read_lower {c : Cursor} (hlt : c.rest.head? = some '<') :
    read c.lower = (read c).lower StartTag.lower := by
  obtain ⟨nameEnd, tokens, h⟩ := spelled_read hlt
  exact h.lower.read_eq

end StartTag

/-! ### Bodies -/

section Readings

variable (c : Cursor)

theorem readComment_lower : readComment c.lower = (readComment c).lower Node.lower := by
  have hsearch : searchFor "-->".toList.isPrefixOf (c.skip 4).lower.rest =
      searchFor "-->".toList.isPrefixOf (c.skip 4).rest :=
    searchFor_map (isPrefixOf_map rfl) _
  rw [readComment, readComment, Cursor.skip_lower]
  simp only [hsearch]
  split
  · simp [Read.lower, Node.lower, Cursor.skip_lower, Cursor.peek_lower]
  · simp [Read.lower, Node.lower, Cursor.skip_lower, Cursor.peek_lower, Problem.lower,
      Problem.Kind.lower]

theorem readText_lower : readText c.lower = (readText c).lower Node.lower := by
  have htail : c.lower.rest.tail.takeWhile (· ≠ '<') =
      (c.rest.tail.takeWhile (· ≠ '<')).map Char.toLower := by
    rw [Cursor.rest_lower, ← List.map_tail, (caseBlind_ne rfl).takeWhile_map]
  simp only [readText, htail, List.length_map, Cursor.skip_lower, Cursor.peek_lower]
  simp [Read.lower, Node.lower]

theorem readRawText_lower (name : String) :
    readRawText name.toLower c.lower = (readRawText name c).lower RawText.lower := by
  have hword : '<' :: '/' :: name.toLower.toList =
      ('<' :: '/' :: name.toList).map Char.toLower := by
    rw [toList_toLower]
    rfl
  have hsearch : searchFor (beginsIgnoringCase ('<' :: '/' :: name.toLower.toList)) c.lower.rest =
      searchFor (beginsIgnoringCase ('<' :: '/' :: name.toList)) c.rest := by
    rw [hword]
    exact searchFor_map (beginsIgnoringCase_map _) _
  rw [readRawText, readRawText, hsearch]
  split
  · simp [Read.lower, RawText.lower, Cursor.skip_lower, Cursor.peek_lower, Cursor.skipPast_lower]
  · simp [Read.lower, RawText.lower, Cursor.skip_lower, Cursor.peek_lower, Problem.lower,
      Problem.Kind.lower]

theorem endTagName_lower : endTagName c.lower = (endTagName c).toLower := by
  rw [endTagName, endTagName, Cursor.skip_lower, Cursor.rest_lower,
    caseBlind_endTagName.takeWhile_map, ofList_map_toLower]

end Readings

theorem sameName_lower (a b : String) : sameName a.toLower b.toLower = sameName a b := by
  rw [sameName, sameName, toList_toLower, toList_toLower, sameIgnoringCase_map]

theorem sameName_toLower_self (name : String) : sameName name.toLower name = true := by
  rw [sameName, sameIgnoringCase_iff, toList_toLower, map_toLower_map_toLower]

/-- What stands at a place is the same in lower case. -/
theorem step_lower (c : Cursor) : step c.lower = (step c).lower := by
  rw [step, step, Cursor.rest_lower, ahead_map]
  cases hahead : ahead c.rest with
  | comment => exact congrArg Step.node (readComment_lower c)
  | endTag => exact congrArg Step.closing (endTagName_lower c)
  | other => exact congrArg Step.node (readText_lower c)
  | startTag =>
    have hread := StartTag.read_lower (head?_of_ahead_eq_startTag hahead)
    have hsame := sameName_toLower_self (StartTag.read c).value.name
    have hraw := readRawText_lower (StartTag.read c).after (StartTag.read c).value.name
    simp only [hread, Read.lower, StartTag.lower, isVoid_congr hsame, isRawText_congr hsame]
    simp only [Read.lower] at hraw
    rw [hraw]
    split
    · simp [Step.lower, Read.lower, Node.lower, Element.lower]
    · split
      · simp [Step.lower, Read.lower, Node.lower, Element.lower, RawText.lower]
      · rfl

namespace Body

theorem prepend_lower (nodes : List Node) (problems : List Problem) (b : Body) :
    (b.prepend nodes problems).lower =
      b.lower.prepend (nodes.map Node.lower) (problems.map Problem.lower) := by
  simp [prepend, Body.lower]

theorem toElement_lower (c : Cursor) (tag : StartTag) (b : Body) :
    b.lower.toElement c.lower tag.lower = (b.toElement c tag).lower := by
  simp [toElement, Body.lower, Node.lower, Element.lower, StartTag.lower]

theorem any_sameName_lower (outer : List String) (name : String) :
    (outer.map String.toLower).any (sameName · name.toLower) = outer.any (sameName · name) := by
  rw [List.any_map]
  exact congrArg outer.any (funext fun other => sameName_lower other name)

theorem Run.lower {parent : String} {outer : List String} {c : Cursor} {b : Body}
    (h : Run parent outer c b) :
    Run parent.toLower (outer.map String.toLower) c.lower b.lower := by
  induction h with
  | @endOfSource parent outer c rest =>
    exact .endOfSource (by rw [Cursor.rest_lower, rest, List.map_nil])
  | @node parent outer c r more rest stands _ ih =>
    have hstands : step c.lower = .node (r.lower Node.lower) := by
      rw [step_lower, stands]
      rfl
    rw [prepend_lower]
    exact .node (by simpa using rest) hstands ih
  | @element parent outer c tag inner more stands _ _ ihInside ih =>
    have hstands : step c.lower = .opening (tag.lower StartTag.lower) := by
      rw [step_lower, stands]
      rfl
    rw [prepend_lower, List.map_append, List.map_singleton, ← toElement_lower]
    exact .element hstands ihInside ih
  | @closed parent outer c name stands own =>
    have hstands : step c.lower = .closing name.toLower := by
      rw [step_lower, stands]
      rfl
    have hclosed : Run parent.toLower (outer.map String.toLower) c.lower _ :=
      .closed hstands ((sameName_lower name parent).trans own)
    rwa [Cursor.skipPast_lower rfl] at hclosed
  | @implicit parent outer c name stands other isOpen =>
    have hstands : step c.lower = .closing name.toLower := by
      rw [step_lower, stands]
      rfl
    have himplicit := Run.implicit hstands ((sameName_lower name parent).trans other)
      ((any_sameName_lower outer name).trans isOpen)
    rwa [length_toLower, Cursor.skip_lower] at himplicit
  | @stray parent outer c name more stands other notOpen _ ih =>
    have hstands : step c.lower = .closing name.toLower := by
      rw [step_lower, stands]
      rfl
    rw [← Cursor.skipPast_lower rfl] at ih
    have hstray := Run.stray hstands ((sameName_lower name parent).trans other)
      ((any_sameName_lower outer name).trans notOpen) ih
    rw [prepend_lower]
    rwa [Cursor.skipPast_lower rfl] at hstray

theorem read_lower (parent : String) (outer : List String) (c : Cursor) :
    read parent.toLower (outer.map String.toLower) c.lower = (read parent outer c).lower :=
  (run_read parent outer c).lower.read_eq

end Body

/-! ### Blocks -/

namespace Attribute

/-- Names are stored as written and looked up in lower case. -/
theorem name_lower (a : Attribute) : a.lower.name = a.name := toLower_toLower a.rawName

theorem find?_lower (attributes : List Attribute) (name : String) :
    find? (attributes.map Attribute.lower) name = (find? attributes name).map Attribute.lower := by
  rw [find?, find?, List.find?_map]
  simp only [Function.comp_def, name_lower]

theorem text?_lower (a : Attribute) : a.lower.text? = a.text?.map String.toLower := by
  simp [text?, Attribute.lower, AttributeValue.lower, Function.comp_def]

theorem bind_text?_lower (attributes : List Attribute) (name : String) :
    (find? (attributes.map Attribute.lower) name).bind text? =
      ((find? attributes name).bind text?).map String.toLower := by
  rw [find?_lower]
  cases find? attributes name with
  | none => rfl
  | some a => exact text?_lower a

end Attribute

theorem Template.langIsHtml_lower (lang : Option String) :
    langIsHtml (lang.map String.toLower) = langIsHtml lang := by
  cases lang with
  | none => rfl
  | some lang =>
    have hhtml : "html".toList = "html".toList.map Char.toLower := by decide
    rw [Option.map_some, langIsHtml, langIsHtml, toList_toLower]
    conv => lhs; rw [hhtml]
    exact sameIgnoringCase_map _ _

theorem ofLang_lower (lang : Option String) :
    Script.Dialect.ofLang (lang.map String.toLower) = Script.Dialect.ofLang lang := by
  cases lang with
  | none => rfl
  | some lang => simp only [Script.Dialect.ofLang, Option.map_some, toLower_toLower]

theorem readTemplate_lower (c : Cursor) (tag : Read StartTag) :
    readTemplate c.lower (tag.lower StartTag.lower) = (readTemplate c tag).lower Template.lower := by
  have hlang : (tag.lower StartTag.lower).value.lang = tag.value.lang.map String.toLower :=
    Attribute.bind_text?_lower _ _
  have hhtml : Template.langIsHtml (tag.lower StartTag.lower).value.lang =
      Template.langIsHtml tag.value.lang := by
    rw [hlang, Template.langIsHtml_lower]
  cases hself : tag.value.selfClosing with
  | true =>
    have hself' : (tag.lower StartTag.lower).value.selfClosing = true := hself
    rw [readTemplate_selfClosing hself, readTemplate_selfClosing hself', hlang]
    rfl
  | false =>
    have hself' : (tag.lower StartTag.lower).value.selfClosing = false := hself
    cases hmarkup : Template.langIsHtml tag.value.lang with
    | true =>
      rw [hmarkup] at hhtml
      have hbody := Body.read_lower tag.value.name [] tag.after
      rw [readTemplate_html hself hmarkup rfl, readTemplate_html hself' hhtml hbody, hlang]
      simp [Read.lower, Template.lower, StartTag.lower, Body.lower, Body.contentStop]
    | false =>
      rw [hmarkup] at hhtml
      have hraw := readRawText_lower tag.after tag.value.name
      rw [readTemplate_raw hself hmarkup rfl, readTemplate_raw hself' hhtml hraw, hlang]
      simp [Read.lower, Template.lower, StartTag.lower, RawText.lower]

theorem readRawBlock_lower (tag : Read StartTag) :
    readRawBlock (tag.lower StartTag.lower) = (readRawBlock tag).lower RawText.lower := by
  have hraw := readRawText_lower tag.after tag.value.name
  have hempty : "".toLower = "" := by decide +kernel
  unfold readRawBlock
  cases hself : tag.value.selfClosing with
  | true => simp [Read.lower, StartTag.lower, RawText.lower, hself, hempty]
  | false =>
    simp only [Read.lower, StartTag.lower, hself] at hraw ⊢
    simp [hraw]

theorem readBlock_lower (seen : Bool) {c : Cursor} (hlt : c.rest.head? = some '<') :
    readBlock seen c.lower = (readBlock seen c).lower Block.lower := by
  have hread := StartTag.read_lower hlt
  have hname : ∀ word : String, word.toLower = word →
      sameName (StartTag.read c).value.name.toLower word =
        sameName (StartTag.read c).value.name word := by
    intro word hword
    rw [← sameName_lower (StartTag.read c).value.name word, hword]
  have htemplate := readTemplate_lower c (StartTag.read c)
  have hraw := readRawBlock_lower (StartTag.read c)
  have hlang := Attribute.bind_text?_lower (StartTag.read c).value.attributes "lang"
  have hsetup := Attribute.find?_lower (StartTag.read c).value.attributes "setup"
  unfold readBlock
  simp only [hread, htemplate, hraw]
  simp only [Read.lower, StartTag.lower, hname "template" (by decide +kernel),
    hname "script" (by decide +kernel), hname "style" (by decide +kernel), hlang, hsetup,
    ofLang_lower, Option.isSome_map]
  split
  · rfl
  · split
    · simp [Block.lower, ScriptBlock.lower, RawText.lower]
    · split
      · simp [Block.lower, RawBlock.lower, RawText.lower]
      · simp [Block.lower, RawBlock.lower, RawText.lower]

theorem strayProblem_lower (c : Cursor) : strayProblem c.lower = (strayProblem c).lower := by
  have hblock : "a top-level block".toLower = "a top-level block" := by decide +kernel
  have hgt : CaseBlind (· == '>') := caseBlind_beq rfl
  rw [strayProblem, strayProblem, Cursor.rest_lower, (caseBlind_ne rfl).takeWhile_map,
    List.length_map, ← List.map_take, Cursor.skipPast_lower rfl, Cursor.spanTo_lower, strayEndTag,
    strayEndTag, ← List.map_drop, hgt.trimEnd_map, trimBlanks_map, ofList_map_toLower]
  simp only [Problem.lower, Problem.Kind.lower, hblock]

theorem template?_isSome_lower (b : Block) : b.lower.template?.isSome = b.template?.isSome := by
  cases b <;> rfl

theorem nextMarkup_lower (c : Cursor) : nextMarkup c.lower = (nextMarkup c).lower :=
  Cursor.skipWhile_lower (caseBlind_ne rfl) c

theorem Scan.lower {seen : Bool} {c : Cursor} {blocks : List Block} {problems : List Problem}
    (h : Scan seen c blocks problems) :
    Scan seen c.lower (blocks.map Block.lower) (problems.map Problem.lower) := by
  induction h with
  | @done seen c rest =>
    refine .done ?_
    rw [nextMarkup_lower, Cursor.rest_lower, rest, List.map_nil]
  | @comment seen c blocks problems hahead _ ih =>
    have hread := readComment_lower (nextMarkup c)
    rw [← nextMarkup_lower] at hread
    have hscan : Scan seen c.lower (blocks.map Block.lower) _ :=
      .comment (by rw [nextMarkup_lower, Cursor.rest_lower, ahead_map, hahead])
        (by rw [hread]; exact ih)
    rwa [hread, Read.lower, ← List.map_append] at hscan
  | @endTag seen c blocks problems hahead _ ih =>
    rw [List.map_cons, ← strayProblem_lower, ← nextMarkup_lower]
    refine .endTag (by rw [nextMarkup_lower, Cursor.rest_lower, ahead_map, hahead]) ?_
    rwa [nextMarkup_lower, Cursor.skipPast_lower rfl]
  | @block seen c block blocks problems hahead hreads _ ih =>
    have hread : readBlock seen (nextMarkup c.lower) = block.lower Block.lower := by
      rw [nextMarkup_lower, readBlock_lower seen (head?_of_ahead_eq_startTag hahead), hreads]
    have hscan := Scan.block (by rw [nextMarkup_lower, Cursor.rest_lower, ahead_map, hahead]) hread
      (by rw [Read.lower, template?_isSome_lower]; exact ih)
    rw [List.map_cons, List.map_append]
    exact hscan
  | @other seen c blocks problems hrest hahead _ ih =>
    refine .other ?_ (by rw [nextMarkup_lower, Cursor.rest_lower, ahead_map, hahead]) ?_
    · rw [nextMarkup_lower]
      simpa using hrest
    · rwa [nextMarkup_lower, Cursor.skip_lower]

theorem readBlocks_lower (seen : Bool) (c : Cursor) :
    readBlocks seen c.lower =
      ((readBlocks seen c).1.map Block.lower, (readBlocks seen c).2.map Problem.lower) :=
  (scan_readBlocks seen c).lower.readBlocks_eq

/-! ### Components -/

namespace Component

/-- What is read from a source in lower case is what is read from the source, in lower case. -/
theorem ofText_toLower (source : String) : ofText source.toLower = (ofText source).lower := by
  have hblocks := readBlocks_lower false ⟨0, source.toList⟩
  rw [Cursor.lower] at hblocks
  rw [ofText_eq, ofText_eq, toList_toLower, hblocks, byteLength_map_toLower]
  rfl

theorem map_isHtml_lower (c : Component) :
    c.lower.template?.map Template.isHtml = c.template?.map Template.isHtml := by
  have htemplate : c.lower.template? = c.template?.map Template.lower := by
    simp only [template?, Component.lower]
    induction c.blocks with
    | nil => rfl
    | cons b blocks ih =>
      cases b with
      | template t => rfl
      | script | style | custom => exact ih
  rw [htemplate, Option.map_map]
  exact congrArg (Option.map · c.template?) (funext fun t => Template.langIsHtml_lower t.lang)

end Component

/-- Sources that differ only in the case of letters have the same blocks, nodes and problems at
the same places, with the same flags, dialects and quotes; what is stored of the text differs only
in the case of letters. -/
theorem component_ignores_case (s t : String) (h : s.toLower = t.toLower) :
    (Component.ofText s).lower = (Component.ofText t).lower ∧
      (Component.ofText s).template?.map Template.isHtml =
        (Component.ofText t).template?.map Template.isHtml := by
  have heq : (Component.ofText s).lower = (Component.ofText t).lower := by
    rw [← Component.ofText_toLower, ← Component.ofText_toLower, h]
  refine ⟨heq, ?_⟩
  rw [← Component.map_isHtml_lower, heq, Component.map_isHtml_lower]

/-- Names of blocks, elements and attributes, values and end tags in either case. -/
theorem component_ignores_case_mixed :
    ∃ s t : String,
      s = "<TEMPLATE Lang=Html><p A='é'></P></q><bR>É</TemplatE><sCript SETUP lang=TSX>" ∧
      t = "<template lang=HTML><P a='é'></p></Q><Br>É</template><SCRIPT Setup lang=tsx>" ∧
      s.toLower = t.toLower ∧ (Component.ofText s).lower = (Component.ofText t).lower ∧
      (Component.ofText s).scripts.map (fun b => (b.dialect, b.setup)) = [(.tsx, true)] := by
  have hlower : ∀ s t : String, s.toList.map Char.toLower = t.toList.map Char.toLower →
      s.toLower = t.toLower := by
    intro s t h
    rw [← String.toList_inj, toList_toLower, toList_toLower, h]
  exact ⟨_, _, rfl, rfl, hlower _ _ (by decide),
    (component_ignores_case _ _ (hlower _ _ (by decide))).1, by decide +kernel⟩

end CosmeticLint.Markup
