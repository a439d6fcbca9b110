import CosmeticLint.Proofs.Markup.Faithful

/-! The layout of a template's body: everything that stands in the source, stray end tags
included, with the place where each element's content stops and what closes it. The nodes
of a body and the problems met in it are read off its layout. -/

namespace CosmeticLint.Markup

open Cursor (LiesIn RunsThrough)

/-- The text of an end tag: it runs through the next `>`, or to the end of the text. -/
structure EndTagAt (text : List Char) (span : Span) (w : List Char) : Prop where
  slice : span.slice? text = some w
  through : (∃ u, '>' ∉ u ∧ w = u ++ ['>']) ∨ '>' ∉ w ∧ span.stop = byteLength text

/-- What closes the content of an element: an end tag, or nothing; then the content stops at
an offset and the element is reported at a span. -/
inductive Closing
  | endTag (span : Span)
  | missing (offset : Nat) (reported : Span)

namespace Closing

/-- Where the content of the element stops. -/
def contentStop : Closing → Nat
  | endTag span => span.start
  | missing offset _ => offset

/-- Where the element stops. -/
def stop : Closing → Nat
  | endTag span => span.stop
  | missing offset _ => offset

def isMissing : Closing → Bool
  | endTag _ => false
  | missing .. => true

/-- An element that nothing closes is reported by its name. -/
def problems (name : String) : Closing → List Problem
  | endTag _ => []
  | missing _ reported => [⟨.unclosedTag name, reported⟩]

/-- An end tag begins with the name of its element. Without one, the content stops with the
text or before the end tag of an element around, which is what is reported. -/
def Sound (text : List Char) (around : List String) (name : String) : Closing → Prop
  | endTag span => ∃ w, EndTagAt text span w ∧
      beginsIgnoringCase ('<' :: '/' :: name.toList) w = true
  | missing offset reported => offset = byteLength text ∨
      ∃ other, around.any (sameName · other) = true ∧ reported.start = offset ∧
        reported.slice? text = some ("</".toList ++ other.toList)

end Closing

/-- What can stand in a body. An element without content has no end tag; the content of a raw
text element is text; any other element holds further pieces. -/
inductive Piece
  | text (span : Span) (value : String)
  | comment (span : Span) (data : String) (closed : Bool)
  | childless (tag : StartTag) (problems : List Problem)
  | rawText (tag : StartTag) (problems : List Problem) (content : RawText) (closing : Closing)
  | element (tag : StartTag) (problems : List Problem) (pieces : List Piece) (closing : Closing)
  | stray (name : String) (span : Span)

namespace Piece

def span : Piece → Span
  | text span _ => span
  | comment span _ _ => span
  | childless tag _ => tag.span
  | rawText tag _ _ closing => ⟨tag.span.start, closing.stop⟩
  | element tag _ _ closing => ⟨tag.span.start, closing.stop⟩
  | stray _ span => span

mutual

/-- The node that a piece stands for; a stray end tag stands for none. -/
def nodes : Piece → List Node
  | text span value => [.text span value]
  | comment span data _ => [.comment span data]
  | childless tag _ => [.element ⟨tag.span, tag.name, tag.attributes, true⟩ []]
  | rawText tag _ content closing =>
    [.element ⟨⟨tag.span.start, closing.stop⟩, tag.name, tag.attributes, false⟩
      [.text content.span content.text]]
  | element tag _ pieces closing =>
    [.element ⟨⟨tag.span.start, closing.stop⟩, tag.name, tag.attributes, false⟩ (nodesOf pieces)]
  | stray .. => []

def nodesOf : List Piece → List Node
  | [] => []
  | piece :: rest => piece.nodes ++ nodesOf rest

end

mutual

/-- The problems that a piece inside `parent` gives, in the order in which they are met. -/
def problems (parent : String) : Piece → List Problem
  | text .. => []
  | comment span _ closed => if closed then [] else [⟨.unterminatedComment, span⟩]
  | childless _ problems => problems
  | rawText tag problems _ closing => problems ++ closing.problems tag.name
  | element tag problems pieces closing =>
    problems ++ (problemsOf tag.name pieces ++ closing.problems tag.name)
  | stray name span => [⟨.mismatchedClosingTag parent name, span⟩]

def problemsOf (parent : String) : List Piece → List Problem
  | [] => []
  | piece :: rest => piece.problems parent ++ problemsOf parent rest

end

end Piece

/-- The start tag, with its problems, is what is read at its place in the text. -/
def StartTag.Stands (text : List Char) (tag : StartTag) (problems : List Problem) : Prop :=
  ∃ c : Cursor, c.LiesIn text ∧ c.rest.head? = some '<' ∧ c.offset = tag.span.start ∧
    (StartTag.read c).value = tag ∧ (StartTag.read c).problems = problems

namespace Piece

mutual

/-- The piece is what stands in the text inside the open elements `around`, innermost first.
The pieces inside an element cover its content without gap or overlap. -/
def Sound (text : List Char) (around : List String) : Piece → Prop
  | .text span value => span.slice? text = some value.toList
  | .comment span data closed => (closed = false → span.stop = byteLength text) ∧
      span.slice? text =
        some ("<!--".toList ++ (data.toList ++ if closed then "-->".toList else []))
  | .childless tag problems => tag.Stands text problems ∧
      (tag.selfClosing = true ∨ isVoid tag.name = true)
  | .rawText tag problems content closing => tag.Stands text problems ∧
      tag.selfClosing = false ∧ isRawText tag.name = true ∧
      content.span = ⟨tag.span.stop, closing.contentStop⟩ ∧
      content.span.slice? text = some content.text.toList ∧ closing.Sound text around tag.name
  | .element tag problems pieces closing => tag.Stands text problems ∧
      tag.selfClosing = false ∧ isVoid tag.name = false ∧ isRawText tag.name = false ∧
      Span.Tiles tag.span.stop closing.contentStop (pieces.map span) ∧
      closing.Sound text around tag.name ∧ AllSound text (tag.name :: around) pieces
  | .stray name span => around.any (sameName · name) = false ∧
      ∃ w, EndTagAt text span ("</".toList ++ name.toList ++ w)

def AllSound (text : List Char) (around : List String) : List Piece → Prop
  | [] => True
  | piece :: rest => piece.Sound text around ∧ AllSound text around rest

end

end Piece

variable {text : List Char} {c d : Cursor}

/-! ### One step -/

/-- Reading an end tag from `c` to `d` gives its text. -/
theorem EndTagAt.of_reads {w : List Char} (hc : c.LiesIn text) (hr : c.Reads w d)
    (hthrough : RunsThrough '>' w d.rest) : EndTagAt text (c.spanTo d) w := by
  refine ⟨hc.slice? hr, hthrough.imp_right ?_⟩
  rintro ⟨hgt, hend⟩
  exact ⟨hgt, (hc.reads hr).offset_eq_iff.2 hend⟩

theorem beginsIgnoringCase_endTag {name own : String} (h : sameName own name = true)
    (tail : List Char) :
    beginsIgnoringCase ('<' :: '/' :: name.toList) ("</".toList ++ own.toList ++ tail) = true := by
  refine beginsIgnoringCase_iff.2 ⟨"</".toList ++ own.toList, tail, rfl, ?_⟩
  have hmap := sameIgnoringCase_iff.1 h
  rw [sameIgnoringCase_iff]
  simp [hmap]

/-- The piece stands from `c` to `d` and gives these nodes and problems. -/
structure Piece.Covers (text : List Char) (parent : String) (around : List String) (c d : Cursor)
    (nodes : List Node) (problems : List Problem) (piece : Piece) : Prop where
  reads : ∃ w, w ≠ [] ∧ c.Reads w d
  span : piece.span = c.spanTo d
  nodes : piece.nodes = nodes
  problems : piece.problems parent = problems
  sound : piece.Sound text around

theorem StartTag.stands_read (hc : c.LiesIn text) (hlt : c.rest.head? = some '<') :
    (StartTag.read c).value.Stands text (StartTag.read c).problems := by
  refine ⟨c, hc, hlt, ?_, rfl, rfl⟩
  rw [span_read hlt]
  rfl

/-- A raw text element from its start tag to what closes it. -/
theorem StartTag.rawText_covers (hc : c.LiesIn text) (hlt : c.rest.head? = some '<')
    (goesOn : (read c).value.selfClosing = false) (raw : isRawText (read c).value.name = true)
    {content w : List Char} {e : Cursor} {closing : Closing} (hd : (read c).after.Reads content d)
    (he : d.Reads w e) (hcontent : closing.contentStop = d.offset) (hstop : closing.stop = e.offset)
    (parent : String) (around : List String)
    (hsound : closing.Sound text around (read c).value.name) :
    ∃ piece : Piece, piece.Covers text parent around c e
      [.element ⟨c.spanTo e, (read c).value.name, (read c).value.attributes, false⟩
        [.text ((read c).after.spanTo d) (String.ofList content)]]
      ((read c).problems ++ closing.problems (read c).value.name) := by
  obtain ⟨u, hu, hr⟩ := reads_after hlt
  have hspan := span_read hlt
  refine ⟨.rawText (read c).value (read c).problems
    ⟨(read c).after.spanTo d, String.ofList content⟩ closing,
    ⟨u ++ (content ++ w), by simp [hu], hr.trans (hd.trans he)⟩, ?_, ?_, rfl,
    stands_read hc hlt, goesOn, raw, ?_, ?_, hsound⟩
  · rw [Piece.span, hspan, hstop]
    rfl
  · rw [Piece.nodes, hspan, hstop]
    rfl
  · rw [hspan, hcontent]
    rfl
  · rw [String.toList_ofList]
    exact (hc.reads hr).slice? hd

theorem step_covers (hc : c.LiesIn text) (hrest : c.rest ≠ []) {r : Read Node}
    (h : step c = .node r) (parent : String) (around : List String) :
    ∃ piece : Piece, piece.Covers text parent around c r.after [r.value] r.problems := by
  have hstands := standing_step c
  rw [h] at hstands
  cases hstands with
  | comment hahead =>
    obtain ⟨data, d, ⟨hr, heq⟩ | ⟨hr, hend, heq⟩⟩ := readComment_cases hahead
    · rw [heq]
      refine ⟨.comment (c.spanTo d) (String.ofList data) true, ⟨_, by simp, hr⟩, rfl, rfl, rfl,
        by simp, ?_⟩
      rw [String.toList_ofList (l := data)]
      exact hc.slice? hr
    · rw [heq]
      refine ⟨.comment (c.spanTo d) (String.ofList data) false, ⟨_, by simp, hr⟩, rfl, rfl, rfl,
        fun _ => (hc.reads hr).offset_eq_iff.2 hend, ?_⟩
      rw [String.toList_ofList (l := data)]
      simpa using hc.slice? hr
  | text hahead =>
    obtain ⟨w, d, hw, hr, heq⟩ := readText_reads hrest
    rw [heq]
    refine ⟨.text (c.spanTo d) (String.ofList w), ⟨w, hw, hr⟩, rfl, rfl, rfl, ?_⟩
    rw [Piece.Sound, String.toList_ofList]
    exact hc.slice? hr
  | childless hahead empty =>
    have hlt := head?_of_ahead_eq_startTag hahead
    exact ⟨.childless (StartTag.read c).value (StartTag.read c).problems,
      StartTag.reads_after hlt, StartTag.span_read hlt, rfl, rfl, StartTag.stands_read hc hlt, empty⟩
  | rawText hahead goesOn raw hcontent =>
    have hlt := head?_of_ahead_eq_startTag hahead
    obtain ⟨u, -, hr⟩ := StartTag.reads_after hlt
    have htag := hc.reads hr
    subst hcontent
    obtain ⟨content, d, hd, ⟨w, e, hw, hbegins, hthrough, heq⟩ | ⟨hend, heq⟩⟩ :=
      readRawText_cases (StartTag.read c).value.name (StartTag.gt_notMem_name hlt)
        (StartTag.read c).after
    · rw [heq]
      have hclosing : (Closing.endTag (d.spanTo e)).Sound text around (StartTag.read c).value.name :=
        ⟨w, .of_reads (htag.reads hd) hw hthrough, hbegins⟩
      exact StartTag.rawText_covers hc hlt goesOn raw hd hw rfl rfl parent around hclosing
    · rw [heq]
      have hclosing : (Closing.missing d.offset ((StartTag.read c).after.spanTo d)).Sound text
          around (StartTag.read c).value.name := Or.inl ((htag.reads hd).offset_eq_iff.2 hend)
      exact StartTag.rawText_covers hc hlt goesOn raw hd (.refl d) rfl rfl parent around hclosing

/-! ### Runs -/

namespace Body

/-- The pieces of a body read from `c` on, and what closes it. -/
structure LaidOut (text : List Char) (parent : String) (outer : List String) (c : Cursor)
    (b : Body) (pieces : List Piece) (closing : Closing) : Prop where
  reads : ∃ w, c.Reads w b.after
  nodes : b.nodes = Piece.nodesOf pieces
  problems : b.problems = Piece.problemsOf parent pieces ++ closing.problems parent
  tiles : Span.Tiles c.offset closing.contentStop (pieces.map Piece.span)
  sound : Piece.AllSound text (parent :: outer) pieces
  closed : closing.Sound text outer parent
  stop : closing.stop = b.after.offset
  contentStop : closing.contentStop = b.contentStop

theorem LaidOut.prepend {parent : String} {outer : List String} {b : Body} {pieces : List Piece}
    {closing : Closing} {piece : Piece} {nodes : List Node} {problems : List Problem}
    (h : b.LaidOut text parent outer d pieces closing)
    (hpiece : piece.Covers text parent (parent :: outer) c d nodes problems) :
    (b.prepend nodes problems).LaidOut text parent outer c (piece :: pieces) closing := by
  obtain ⟨⟨v, hv, hr⟩, hspan, hnodes, hproblems, hsound⟩ := hpiece
  obtain ⟨w, hw⟩ := h.reads
  refine ⟨⟨v ++ w, hr.trans hw⟩, ?_, ?_, ?_, ⟨hsound, h.sound⟩, h.closed, h.stop, h.contentStop⟩
  · rw [Body.prepend, Piece.nodesOf, hnodes, h.nodes]
  · rw [Body.prepend, Piece.problemsOf, hproblems, h.problems, List.append_assoc]
  · rw [List.map_cons, hspan]
    exact ⟨rfl, hr.offset_lt hv, h.tiles⟩

/-- An element from its start tag to the end of the body inside it. -/
theorem LaidOut.element_covers {inner : Body} {inside : List Piece} {closing : Closing}
    {parent : String} {outer : List String} (hc : c.LiesIn text)
    (stands : step c = .opening (StartTag.read c))
    (h : inner.LaidOut text (StartTag.read c).value.name (parent :: outer) (StartTag.read c).after
      inside closing) :
    (Piece.element (StartTag.read c).value (StartTag.read c).problems inside closing).Covers text
      parent (parent :: outer) c inner.after [inner.toElement c (StartTag.read c).value]
      ((StartTag.read c).problems ++ inner.problems) := by
  have hlt := head?_of_ahead_eq_startTag (startTag_of_opening stands).1
  obtain ⟨goesOn, notVoid, notRaw⟩ := hasContent_of_opening stands
  obtain ⟨u, hu, hr⟩ := StartTag.reads_after hlt
  obtain ⟨v, hv⟩ := h.reads
  have hspan := StartTag.span_read hlt
  refine ⟨⟨u ++ v, by simp [hu], hr.trans hv⟩, ?_, ?_, ?_, StartTag.stands_read hc hlt, goesOn,
    notVoid, notRaw, ?_, h.closed, h.sound⟩
  · rw [Piece.span, hspan, h.stop]
    rfl
  · rw [Piece.nodes, hspan, h.stop, toElement, h.nodes]
    rfl
  · rw [Piece.problems, h.problems]
  · rw [hspan]
    exact h.tiles

/-- Every run of steps has a layout. -/
theorem Run.laidOut {parent : String} {outer : List String} {b : Body}
    (h : Run parent outer c b) (hc : c.LiesIn text) :
    ∃ pieces closing, b.LaidOut text parent outer c pieces closing := by
  induction h with
  | @endOfSource parent outer c rest =>
    exact ⟨[], .missing c.offset (Span.empty c.offset), ⟨[], .refl c⟩, rfl, rfl, rfl, trivial,
      Or.inl (hc.offset_eq_iff.2 rest), rfl, rfl⟩
  | @node parent outer c r more hrest stands _ ih =>
    obtain ⟨piece, hpiece⟩ := step_covers hc hrest stands parent (parent :: outer)
    obtain ⟨w, -, hw⟩ := hpiece.reads
    obtain ⟨pieces, closing, hmore⟩ := ih (hc.reads hw)
    exact ⟨piece :: pieces, closing, hmore.prepend hpiece⟩
  | @element parent outer c tag inner more stands _ _ ihInside ih =>
    obtain ⟨hahead, rfl⟩ := startTag_of_opening stands
    have hlt := head?_of_ahead_eq_startTag hahead
    obtain ⟨u, -, hu⟩ := StartTag.reads_after hlt
    obtain ⟨inside, closing, hinner⟩ := ihInside (hc.reads hu)
    obtain ⟨v, hv⟩ := hinner.reads
    obtain ⟨pieces, closing', hmore⟩ := ih ((hc.reads hu).reads hv)
    exact ⟨_ :: pieces, closing', hmore.prepend (hinner.element_covers hc stands)⟩
  | @closed parent outer c name stands own =>
    obtain ⟨hahead, rfl⟩ := endTag_of_closing stands
    obtain ⟨tail, hr, hthrough⟩ := endTag_reads hahead
    refine ⟨[], .endTag (c.spanTo (c.skipPast '>')), ⟨_, hr⟩, rfl, rfl, rfl, trivial,
      ⟨_, .of_reads hc hr hthrough, ?_⟩, rfl, rfl⟩
    exact beginsIgnoringCase_endTag own tail
  | @implicit parent outer c name stands other isOpen =>
    obtain ⟨hahead, rfl⟩ := endTag_of_closing stands
    have hr := endTagName_reads hahead
    exact ⟨[], .missing c.offset (c.spanTo (c.skip (2 + (endTagName c).length))), ⟨[], .refl c⟩,
      rfl, rfl, rfl, trivial, Or.inr ⟨endTagName c, isOpen, rfl, hc.slice? hr⟩, rfl, rfl⟩
  | @stray parent outer c name more stands other notOpen _ ih =>
    obtain ⟨hahead, rfl⟩ := endTag_of_closing stands
    obtain ⟨tail, hr, hthrough⟩ := endTag_reads hahead
    obtain ⟨pieces, closing, hmore⟩ := ih (hc.reads hr)
    refine ⟨.stray (endTagName c) (c.spanTo (c.skipPast '>')) :: pieces, closing,
      hmore.prepend ⟨⟨_, by simp, hr⟩, rfl, rfl, rfl, ?_, tail, .of_reads hc hr hthrough⟩⟩
    rw [List.any_cons, sameName_comm, other, notOpen]
    rfl

end Body

end CosmeticLint.Markup
