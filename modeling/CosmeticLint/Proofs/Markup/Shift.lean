import CosmeticLint.Proofs.Markup.Scan

/-! Reading does not depend on where the text starts. What is read from a text that starts at an
offset is what is read from the text alone, with every span moved by the offset. -/

namespace CosmeticLint

/-! ### Places -/

namespace Cursor

/-- The place in a text that starts further on. -/
def shift (c : Cursor) (distance : Nat) : Cursor := ⟨c.offset + distance, c.rest⟩

variable (c d : Cursor) (distance n : Nat)

@[simp] theorem rest_shift : (c.shift distance).rest = c.rest := rfl

@[simp] theorem offset_shift : (c.shift distance).offset = c.offset + distance := rfl

@[simp] theorem skip_shift : (c.shift distance).skip n = (c.skip n).shift distance := by
  simp only [skip, shift, Cursor.mk.injEq, and_true]
  omega

@[simp] theorem skipWhile_shift (p : Char → Bool) :
    (c.shift distance).skipWhile p = (c.skipWhile p).shift distance := skip_shift ..

@[simp] theorem skipPast_shift (x : Char) :
    (c.shift distance).skipPast x = (c.skipPast x).shift distance := skip_shift ..

@[simp] theorem spanTo_shift :
    (c.shift distance).spanTo (d.shift distance) = (c.spanTo d).shift distance := rfl

@[simp] theorem peek_shift : (c.shift distance).peek n = c.peek n := rfl

theorem Reads.shift {c d : Cursor} {w : List Char} {distance : Nat} (h : c.Reads w d) :
    (c.shift distance).Reads w (d.shift distance) := by
  refine ⟨h.1, ?_⟩
  rw [offset_shift, offset_shift, h.2]
  omega

end Cursor

@[simp] theorem Span.empty_shift (offset distance : Nat) :
    Span.empty (offset + distance) = (Span.empty offset).shift distance := rfl

@[simp] theorem Span.stop_shift (s : Span) (distance : Nat) :
    (s.shift distance).stop = s.stop + distance := rfl

namespace Markup

/-! ### What is read, moved -/

def Token.shift (distance : Nat) (t : Token) : Token := { t with span := t.span.shift distance }

def AttributeValue.shift (distance : Nat) (v : AttributeValue) : AttributeValue :=
  { v with span := v.span.shift distance }

def Attribute.shift (distance : Nat) (a : Attribute) : Attribute :=
  { a with span := a.span.shift distance, value := a.value.map (·.shift distance) }

def StartTag.shift (distance : Nat) (tag : StartTag) : StartTag :=
  { tag with
    span := tag.span.shift distance
    attributes := tag.attributes.map (·.shift distance) }

def RawText.shift (distance : Nat) (r : RawText) : RawText :=
  { r with span := r.span.shift distance }

def Element.shift (distance : Nat) (e : Element) : Element :=
  { e with
    span := e.span.shift distance
    attributes := e.attributes.map (·.shift distance) }

def Node.shift (distance : Nat) : Node → Node
  | .element e children => .element (e.shift distance) (children.map (Node.shift distance))
  | .text span value => .text (span.shift distance) value
  | .comment span data => .comment (span.shift distance) data

def Problem.shift (distance : Nat) (p : Problem) : Problem :=
  { p with span := p.span.shift distance }

def Template.shift (distance : Nat) (t : Template) : Template :=
  { t with
    span := t.span.shift distance
    contentSpan := t.contentSpan.shift distance
    attributes := t.attributes.map (·.shift distance)
    children := t.children.map (·.shift distance) }

def ScriptBlock.shift (distance : Nat) (b : ScriptBlock) : ScriptBlock :=
  { b with
    span := b.span.shift distance
    contentSpan := b.contentSpan.shift distance
    attributes := b.attributes.map (·.shift distance) }

def RawBlock.shift (distance : Nat) (b : RawBlock) : RawBlock :=
  { b with
    span := b.span.shift distance
    contentSpan := b.contentSpan.shift distance
    attributes := b.attributes.map (·.shift distance) }

def Block.shift (distance : Nat) : Block → Block
  | template b => template (b.shift distance)
  | script b => script (b.shift distance)
  | style b => style (b.shift distance)
  | custom b => custom (b.shift distance)

/-- What was read, given how it is moved, at the place moved alike. -/
def Read.shift {α : Type} (shift : Nat → α → α) (distance : Nat) (r : Read α) : Read α :=
  ⟨shift distance r.value, r.problems.map (·.shift distance), r.after.shift distance⟩

def Step.shift (distance : Nat) : Step → Step
  | node r => node (r.shift Node.shift distance)
  | opening r => opening (r.shift StartTag.shift distance)
  | closing name => closing name

def Ending.shift (distance : Nat) : Ending → Ending
  | closed endTag => closed (endTag.shift distance)
  | implicit => implicit
  | endOfSource => endOfSource

def Body.shift (distance : Nat) (b : Body) : Body :=
  ⟨b.nodes.map (·.shift distance), b.ending.shift distance, b.problems.map (·.shift distance),
    b.after.shift distance⟩

/-! ### Start tags -/

section Tags

variable (distance : Nat)

theorem Token.Found.shift {c d : Cursor} {t : Token} (h : Found c t d) :
    Found (c.shift distance) (t.shift distance) (d.shift distance) := by
  obtain ⟨blanks, start, hr, hblank, hw, hspan, hspell⟩ := h
  exact ⟨blanks, start.shift distance, hr.shift, hblank, hw.shift,
    congrArg (·.shift distance) hspan, hspell⟩

theorem Token.Lexed.shift {c d : Cursor} {ts : List Token} (h : Lexed c ts d) :
    Lexed (c.shift distance) (ts.map (·.shift distance)) (d.shift distance) := by
  induction h with
  | last found closes => exact .last (found.shift distance) closes
  | more found goesOn _ ih => exact .more (found.shift distance) goesOn ih

theorem AttributeValue.ofToken?_shift (t : Token) :
    ofToken? (t.shift distance) = (ofToken? t).map (·.shift distance) := by
  unfold ofToken?
  simp only [Token.shift]
  cases t.kind <;> rfl

namespace StartTag

theorem Roles.shift {unclosed : Problem} {ts : List Token} {as : List Attribute}
    {ps : List Problem} (h : Roles unclosed ts as ps) :
    Roles (unclosed.shift distance) (ts.map (·.shift distance)) (as.map (·.shift distance))
      (ps.map (·.shift distance)) := by
  induction h with
  | done => exact .done
  | close kind => exact .close kind
  | cutOff kind => exact .cutOff kind
  | slash kind _ ih => exact .slash kind ih
  | @misplaced t ts as ps kind _ ih => exact .misplaced (t := t.shift distance) kind ih
  | @bare t ts as ps kind next _ ih =>
    refine .bare (t := t.shift distance) kind (fun e he => ?_) ih
    rw [List.head?_map, Option.map_eq_some_iff] at he
    obtain ⟨e', he', rfl⟩ := he
    exact next e' he'
  | @loneEquals t e kind equals =>
    exact .loneEquals (t := t.shift distance) (e := e.shift distance) kind equals
  | @value t e v ts value as ps kind equals gives _ ih =>
    have hgives : AttributeValue.ofToken? (v.shift distance) = some (value.shift distance) := by
      rw [AttributeValue.ofToken?_shift, gives]
      rfl
    exact .value (t := t.shift distance) (e := e.shift distance) kind equals hgives ih
  | @noValue t e v ts as ps kind equals gives _ ih =>
    have hgives : AttributeValue.ofToken? (v.shift distance) = none := by
      rw [AttributeValue.ofToken?_shift, gives]
      rfl
    exact .noValue (t := t.shift distance) (e := e.shift distance) kind equals hgives ih

theorem Spelled.shift {c nameEnd : Cursor} {r : Read StartTag} {tokens : List Token}
    (h : Spelled c r nameEnd tokens) :
    Spelled (c.shift distance) (r.shift StartTag.shift distance) (nameEnd.shift distance)
      (tokens.map (·.shift distance)) where
  name := h.name.shift
  nameChars := h.nameChars
  nameEnds := h.nameEnds
  lexed := h.lexed.shift distance
  roles := h.roles.shift distance
  span := congrArg (·.shift distance) h.span
  selfClosing := by
    simp only [Read.shift, StartTag.shift, h.selfClosing, List.getLast?_map, Option.any_map]
    rfl

theorem read_shift {c : Cursor} (hlt : c.rest.head? = some '<') :
    read (c.shift distance) = (read c).shift StartTag.shift distance := by
  obtain ⟨nameEnd, tokens, h⟩ := spelled_read hlt
  exact (h.shift distance).read_eq

end StartTag

end Tags

/-! ### Bodies -/

section Readings

variable (distance : Nat) (c : Cursor)

theorem readComment_shift :
    readComment (c.shift distance) = (readComment c).shift Node.shift distance := by
  rw [readComment, readComment]
  simp only [Cursor.skip_shift, Cursor.rest_shift]
  split <;> simp [Read.shift, Node.shift, Problem.shift]

theorem readText_shift :
    readText (c.shift distance) = (readText c).shift Node.shift distance := by
  simp [readText, Read.shift, Node.shift]

theorem readRawText_shift (name : String) :
    readRawText name (c.shift distance) = (readRawText name c).shift RawText.shift distance := by
  rw [readRawText, readRawText]
  simp only [Cursor.rest_shift]
  split <;> simp [Read.shift, RawText.shift, Problem.shift]

theorem endTagName_shift : endTagName (c.shift distance) = endTagName c := by
  rw [endTagName, endTagName, Cursor.skip_shift, Cursor.rest_shift]

/-- What stands at a place does not depend on how far it is from the start. -/
theorem step_shift : step (c.shift distance) = (step c).shift distance := by
  rw [step, step, Cursor.rest_shift]
  cases hahead : ahead c.rest with
  | comment => exact congrArg Step.node (readComment_shift distance c)
  | endTag => exact congrArg Step.closing (endTagName_shift distance c)
  | other => exact congrArg Step.node (readText_shift distance c)
  | startTag =>
    have hread := StartTag.read_shift distance (head?_of_ahead_eq_startTag hahead)
    have hraw := readRawText_shift distance (StartTag.read c).after (StartTag.read c).value.name
    simp only [hread, Read.shift, StartTag.shift]
    rw [hraw]
    split
    · simp [Step.shift, Read.shift, Node.shift, Element.shift]
    · split
      · simp [Step.shift, Read.shift, Node.shift, Element.shift, RawText.shift]
      · rfl

end Readings

namespace Body

variable (distance : Nat)

theorem prepend_shift (nodes : List Node) (problems : List Problem) (b : Body) :
    (b.prepend nodes problems).shift distance =
      (b.shift distance).prepend (nodes.map (·.shift distance))
        (problems.map (·.shift distance)) := by
  simp [prepend, Body.shift]

theorem toElement_shift (c : Cursor) (tag : StartTag) (b : Body) :
    (b.shift distance).toElement (c.shift distance) (tag.shift distance) =
      (b.toElement c tag).shift distance := by
  simp [toElement, Body.shift, Node.shift, Element.shift, StartTag.shift]

theorem contentStop_shift (b : Body) :
    (b.shift distance).contentStop = b.contentStop + distance := by
  rw [contentStop, contentStop, Body.shift]
  cases b.ending <;> rfl

theorem step_shift_eq {c : Cursor} {s : Step} (stands : step c = s) :
    step (c.shift distance) = s.shift distance := by
  rw [step_shift, stands]

theorem Run.shift {parent : String} {outer : List String} {c : Cursor} {b : Body}
    (h : Run parent outer c b) : Run parent outer (c.shift distance) (b.shift distance) := by
  induction h with
  | endOfSource rest => exact .endOfSource rest
  | @node parent outer c r more rest stands _ ih =>
    rw [prepend_shift]
    exact .node (c := c.shift distance) rest (step_shift_eq distance stands) ih
  | @element parent outer c tag inner more stands _ _ ihInside ih =>
    rw [prepend_shift, List.map_append, List.map_singleton, ← toElement_shift]
    exact .element (step_shift_eq distance stands) ihInside ih
  | @closed parent outer c name stands own =>
    have hclosed : Run parent outer (c.shift distance) _ :=
      .closed (step_shift_eq distance stands) own
    rwa [Cursor.skipPast_shift] at hclosed
  | @implicit parent outer c name stands other isOpen =>
    have himplicit := Run.implicit (step_shift_eq distance stands) other isOpen
    rwa [Cursor.skip_shift] at himplicit
  | @stray parent outer c name more stands other notOpen _ ih =>
    rw [← Cursor.skipPast_shift] at ih
    have hstray := Run.stray (step_shift_eq distance stands) other notOpen ih
    rw [prepend_shift]
    rwa [Cursor.skipPast_shift] at hstray

theorem read_shift (parent : String) (outer : List String) (c : Cursor) :
    read parent outer (c.shift distance) = (read parent outer c).shift distance :=
  ((run_read parent outer c).shift distance).read_eq

end Body

/-! ### Blocks -/

namespace Attribute

variable (distance : Nat)

theorem find?_shift (attributes : List Attribute) (name : String) :
    find? (attributes.map (·.shift distance)) name =
      (find? attributes name).map (·.shift distance) := by
  rw [find?, find?, List.find?_map]
  rfl

theorem text?_shift (a : Attribute) : (a.shift distance).text? = a.text? := by
  rw [text?, text?, Attribute.shift, Option.map_map]
  rfl

theorem bind_text?_shift (attributes : List Attribute) (name : String) :
    (find? (attributes.map (·.shift distance)) name).bind text? =
      (find? attributes name).bind text? := by
  rw [find?_shift]
  cases find? attributes name with
  | none => rfl
  | some a => exact text?_shift distance a

end Attribute

namespace Block

variable (distance : Nat) (b : Block)

theorem template?_shift : (b.shift distance).template? = b.template?.map (·.shift distance) := by
  cases b <;> rfl

theorem script?_shift : (b.shift distance).script? = b.script?.map (·.shift distance) := by
  cases b <;> rfl

theorem style?_shift : (b.shift distance).style? = b.style?.map (·.shift distance) := by
  cases b <;> rfl

theorem custom?_shift : (b.shift distance).custom? = b.custom?.map (·.shift distance) := by
  cases b <;> rfl

end Block

section Blocks

variable (distance : Nat)

theorem readTemplate_shift (c : Cursor) (tag : Read StartTag) :
    readTemplate (c.shift distance) (tag.shift StartTag.shift distance) =
      (readTemplate c tag).shift Template.shift distance := by
  have hlang : (tag.shift StartTag.shift distance).value.lang = tag.value.lang :=
    Attribute.bind_text?_shift ..
  cases hself : tag.value.selfClosing with
  | true =>
    have hself' : (tag.shift StartTag.shift distance).value.selfClosing = true := hself
    rw [readTemplate_selfClosing hself, readTemplate_selfClosing hself', hlang]
    rfl
  | false =>
    have hself' : (tag.shift StartTag.shift distance).value.selfClosing = false := hself
    cases hmarkup : Template.langIsHtml tag.value.lang with
    | true =>
      have hmarkup' : Template.langIsHtml (tag.shift StartTag.shift distance).value.lang = true := by
        rw [hlang, hmarkup]
      have hbody := Body.read_shift distance tag.value.name [] tag.after
      rw [readTemplate_html hself hmarkup rfl, readTemplate_html hself' hmarkup' hbody, hlang,
        Body.contentStop_shift]
      simp [Read.shift, Template.shift, StartTag.shift, Body.shift, Span.shift]
    | false =>
      have hmarkup' : Template.langIsHtml (tag.shift StartTag.shift distance).value.lang = false := by
        rw [hlang, hmarkup]
      have hraw := readRawText_shift distance tag.after tag.value.name
      rw [readTemplate_raw hself hmarkup rfl, readTemplate_raw hself' hmarkup' hraw, hlang]
      simp [Read.shift, Template.shift, StartTag.shift, RawText.shift]

theorem readRawBlock_shift (tag : Read StartTag) :
    readRawBlock (tag.shift StartTag.shift distance) =
      (readRawBlock tag).shift RawText.shift distance := by
  have hraw := readRawText_shift distance tag.after tag.value.name
  unfold readRawBlock
  cases hself : tag.value.selfClosing with
  | true => simp [Read.shift, StartTag.shift, RawText.shift, hself]
  | false =>
    simp only [Read.shift, StartTag.shift, hself] at hraw ⊢
    simp [hraw]

theorem readBlock_shift (seen : Bool) {c : Cursor} (hlt : c.rest.head? = some '<') :
    readBlock seen (c.shift distance) = (readBlock seen c).shift Block.shift distance := by
  have hread := StartTag.read_shift distance hlt
  have htemplate := readTemplate_shift distance c (StartTag.read c)
  have hraw := readRawBlock_shift distance (StartTag.read c)
  have hlang := Attribute.bind_text?_shift distance (StartTag.read c).value.attributes "lang"
  have hsetup := Attribute.find?_shift distance (StartTag.read c).value.attributes "setup"
  unfold readBlock
  simp only [hread, htemplate, hraw]
  simp only [Read.shift, StartTag.shift, hlang, hsetup, Option.isSome_map]
  split
  · rfl
  · by_cases hscript : sameName (StartTag.read c).value.name "script" = true
    · simp [hscript, Block.shift, ScriptBlock.shift, RawText.shift]
    · by_cases hstyle : sameName (StartTag.read c).value.name "style" = true
      · simp [hscript, hstyle, Block.shift, RawBlock.shift, RawText.shift]
      · simp [hscript, hstyle, Block.shift, RawBlock.shift, RawText.shift]

theorem strayProblem_shift (c : Cursor) :
    strayProblem (c.shift distance) = (strayProblem c).shift distance := by
  simp [strayProblem, Problem.shift]

theorem nextMarkup_shift (c : Cursor) :
    nextMarkup (c.shift distance) = (nextMarkup c).shift distance := Cursor.skipWhile_shift ..

theorem Scan.shift {seen : Bool} {c : Cursor} {blocks : List Block} {problems : List Problem}
    (h : Scan seen c blocks problems) :
    Scan seen (c.shift distance) (blocks.map (·.shift distance))
      (problems.map (·.shift distance)) := by
  induction h with
  | @done seen c rest =>
    refine .done ?_
    rwa [nextMarkup_shift]
  | @comment seen c blocks problems hahead _ ih =>
    have hread := readComment_shift distance (nextMarkup c)
    rw [← nextMarkup_shift] at hread
    have hscan : Scan seen (c.shift distance) (blocks.map (·.shift distance)) _ :=
      .comment (by rw [nextMarkup_shift]; exact hahead) (by rw [hread]; exact ih)
    rwa [hread, Read.shift, ← List.map_append] at hscan
  | @endTag seen c blocks problems hahead _ ih =>
    rw [List.map_cons, ← strayProblem_shift, ← nextMarkup_shift]
    refine .endTag (by rw [nextMarkup_shift]; exact hahead) ?_
    rwa [nextMarkup_shift, Cursor.skipPast_shift]
  | @block seen c block blocks problems hahead hreads _ ih =>
    have hread : readBlock seen (nextMarkup (c.shift distance)) =
        block.shift Block.shift distance := by
      rw [nextMarkup_shift, readBlock_shift distance seen (head?_of_ahead_eq_startTag hahead),
        hreads]
    have hkind : (block.value.shift distance).template?.isSome = block.value.template?.isSome := by
      rw [Block.template?_shift, Option.isSome_map]
    have hscan := Scan.block (by rw [nextMarkup_shift]; exact hahead) hread
      (by rw [Read.shift, hkind]; exact ih)
    rw [List.map_cons, List.map_append]
    exact hscan
  | @other seen c blocks problems hrest hahead _ ih =>
    refine .other (by rwa [nextMarkup_shift]) (by rw [nextMarkup_shift]; exact hahead) ?_
    rwa [nextMarkup_shift, Cursor.skip_shift]

end Blocks

end Markup

end CosmeticLint
