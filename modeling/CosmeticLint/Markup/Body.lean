import CosmeticLint.Markup.StartTag

/-! The body of a template. What stands at a place is a complete node, the start tag of an
element that has content, or an end tag. An end tag closes the innermost open element of
its name; the open elements inside that one are reported as unclosed and end where the
end tag starts. An end tag that closes nothing is reported and passed over. -/

namespace CosmeticLint.Markup

/-- Elements that never have content. -/
def voidElements : List String :=
  ["area", "base", "br", "col", "embed", "hr", "img", "input", "link", "meta", "param", "source",
    "track", "wbr"]

/-- Elements whose content is text, not markup. -/
def rawTextElements : List String := ["script", "style", "textarea", "title"]

def sameName (a b : String) : Bool := sameIgnoringCase a.toList b.toList

def isVoid (name : String) : Bool := voidElements.any (sameName · name)

def isRawText (name : String) : Bool := rawTextElements.any (sameName · name)

/-- The kinds of markup that `<` can begin. -/
inductive Ahead
  | comment
  | endTag
  | startTag
  | other
  deriving Repr, DecidableEq

def ahead : List Char → Ahead
  | '<' :: '!' :: '-' :: '-' :: _ => .comment
  | '<' :: '/' :: _ => .endTag
  | '<' :: c :: _ => if c.isAlpha then .startTag else .other
  | _ => .other

/-- Content kept as written. -/
structure RawText where
  span : Span
  text : String
  deriving Repr, DecidableEq, Inhabited

/-- Reads content up to the first `</name`, and the end tag with it. -/
def readRawText (name : String) (c : Cursor) : Read RawText :=
  match searchFor (beginsIgnoringCase ('<' :: '/' :: name.toList)) c.rest with
  | some n => ⟨⟨c.spanTo (c.skip n), c.peek n⟩, [], (c.skip n).skipPast '>'⟩
  | none =>
    let n := c.rest.length
    ⟨⟨c.spanTo (c.skip n), c.peek n⟩, [⟨.unclosedTag name, c.spanTo (c.skip n)⟩], c.skip n⟩

/-- Reads a comment with the cursor on its `<!--`. -/
def readComment (c : Cursor) : Read Node :=
  let body := c.skip 4
  match searchFor "-->".toList.isPrefixOf body.rest with
  | some n =>
    let after := body.skip (n + 3)
    ⟨.comment (c.spanTo after) (body.peek n), [], after⟩
  | none =>
    let n := body.rest.length
    let after := body.skip n
    ⟨.comment (c.spanTo after) (body.peek n), [⟨.unterminatedComment, c.spanTo after⟩], after⟩

/-- Reads text up to the next `<`; a `<` at its head is part of it. -/
def readText (c : Cursor) : Read Node :=
  let n := 1 + (c.rest.tail.takeWhile (· ≠ '<')).length
  ⟨.text (c.spanTo (c.skip n)) (c.peek n), [], c.skip n⟩

/-- The name of the end tag under the cursor. -/
def endTagName (c : Cursor) : String :=
  String.ofList ((c.skip 2).rest.takeWhile fun x => !(isBlank x || x == '>'))

/-- What stands at a place in a template's body. -/
inductive Step
  | node (read : Read Node)
  | opening (read : Read StartTag)
  | closing (name : String)

def step (c : Cursor) : Step :=
  match ahead c.rest with
  | .comment => .node (readComment c)
  | .endTag => .closing (endTagName c)
  | .other => .node (readText c)
  | .startTag =>
    let tag := StartTag.read c
    if tag.value.selfClosing || isVoid tag.value.name then
      .node ⟨.element ⟨tag.value.span, tag.value.name, tag.value.attributes, true⟩ [],
        tag.problems, tag.after⟩
    else if isRawText tag.value.name then
      let content := readRawText tag.value.name tag.after
      .node ⟨.element ⟨c.spanTo content.after, tag.value.name, tag.value.attributes, false⟩
          [.text content.value.span content.value.text],
        tag.problems ++ content.problems, content.after⟩
    else .opening tag

theorem length_readRawText_le (name : String) (c : Cursor) :
    (readRawText name c).after.rest.length ≤ c.rest.length := by
  unfold readRawText
  split
  · exact Nat.le_trans (Cursor.length_skipPast_le ..) (c.length_skip_le _)
  · exact c.length_skip_le _

theorem length_readComment_lt {c : Cursor} (hc : c.rest ≠ []) :
    (readComment c).after.rest.length < c.rest.length := by
  simp only [readComment]
  split
  · exact Nat.lt_of_le_of_lt (Cursor.length_skip_le _ _) (Cursor.length_skip_lt (by omega) hc)
  · exact Nat.lt_of_le_of_lt (Cursor.length_skip_le _ _) (Cursor.length_skip_lt (by omega) hc)

theorem length_readText_lt {c : Cursor} (hc : c.rest ≠ []) :
    (readText c).after.rest.length < c.rest.length := Cursor.length_skip_lt (by omega) hc

theorem length_step_node_lt {c : Cursor} {r : Read Node} (hc : c.rest ≠ [])
    (h : step c = .node r) : r.after.rest.length < c.rest.length := by
  simp only [step] at h
  split at h
  · cases h; exact length_readComment_lt hc
  · cases h
  · cases h; exact length_readText_lt hc
  · split at h
    · cases h; exact StartTag.length_read_lt hc
    · split at h
      · cases h
        exact Nat.lt_of_le_of_lt (length_readRawText_le ..) (StartTag.length_read_lt hc)
      · cases h

theorem length_step_opening_lt {c : Cursor} {r : Read StartTag} (hc : c.rest ≠ [])
    (h : step c = .opening r) : r.after.rest.length < c.rest.length := by
  simp only [step] at h
  split at h <;> try cases h
  split at h
  · cases h
  · split at h
    · cases h
    · cases h; exact StartTag.length_read_lt hc

/-- How a run of sibling nodes ends: at the end tag of their parent, before an end tag of
an element around the parent, or with the source. -/
inductive Ending
  | closed (endTag : Span)
  | implicit
  | endOfSource
  deriving Repr, DecidableEq, Inhabited

/-- A run of sibling nodes. -/
structure Body where
  nodes : List Node
  ending : Ending
  problems : List Problem
  after : Cursor

namespace Body

/-- The body with more problems, and perhaps a node, in front. -/
def prepend (nodes : List Node) (problems : List Problem) (b : Body) : Body :=
  { b with nodes := nodes ++ b.nodes, problems := problems ++ b.problems }

/-- The element that a start tag and its body make. -/
def toElement (c : Cursor) (tag : StartTag) (b : Body) : Node :=
  .element ⟨c.spanTo b.after, tag.name, tag.attributes, false⟩ b.nodes

/-- Reads the children of `parent`, with the bound on what is left that makes the reading
end. The open elements are `parent` and, from the inside out, `outer`. -/
def readWithin (parent : String) (outer : List String) (c : Cursor) :
    { b : Body // b.after.rest.length ≤ c.rest.length } :=
  if hc : c.rest = [] then
    ⟨⟨[], .endOfSource, [⟨.unclosedTag parent, Span.empty c.offset⟩], c⟩, Nat.le_refl _⟩
  else
    match hs : step c with
    | .node r =>
      have hr := length_step_node_lt hc hs
      let more := readWithin parent outer r.after
      ⟨more.1.prepend [r.value] r.problems, Nat.le_trans more.2 (Nat.le_of_lt hr)⟩
    | .opening tag =>
      have ht := length_step_opening_lt hc hs
      let inner := readWithin tag.value.name (parent :: outer) tag.after
      have hi := inner.2
      let more := readWithin parent outer inner.1.after
      ⟨more.1.prepend [inner.1.toElement c tag.value] (tag.problems ++ inner.1.problems), by
        have hm := more.2
        simp only [prepend]
        omega⟩
    | .closing name =>
      let after := c.skipPast '>'
      have ha : after.rest.length < c.rest.length := Cursor.length_skipPast_lt hc
      if sameName name parent then
        ⟨⟨[], .closed (c.spanTo after), [], after⟩, Nat.le_of_lt ha⟩
      else if outer.any (sameName · name) then
        ⟨⟨[], .implicit,
          [⟨.unclosedTag parent, c.spanTo (c.skip (2 + name.length))⟩], c⟩, Nat.le_refl _⟩
      else
        let more := readWithin parent outer after
        ⟨more.1.prepend [] [⟨.mismatchedClosingTag parent name, c.spanTo after⟩],
          Nat.le_trans more.2 (Nat.le_of_lt ha)⟩
termination_by c.rest.length
decreasing_by
  all_goals first
    | exact hr
    | exact ht
    | exact ha
    | exact Nat.lt_of_le_of_lt hi ht

/-- Reads the children of `parent` inside the open elements `outer`, innermost first. -/
def read (parent : String) (outer : List String) (c : Cursor) : Body :=
  (readWithin parent outer c).1

theorem length_read_le (parent : String) (outer : List String) (c : Cursor) :
    (read parent outer c).after.rest.length ≤ c.rest.length := (readWithin parent outer c).2

/-- One step of reading a body, and the reading of what is left. -/
theorem read_eq (parent : String) (outer : List String) (c : Cursor) :
    read parent outer c =
      if c.rest = [] then
        ⟨[], .endOfSource, [⟨.unclosedTag parent, Span.empty c.offset⟩], c⟩
      else
        match step c with
        | .node r => (read parent outer r.after).prepend [r.value] r.problems
        | .opening tag =>
          let inner := read tag.value.name (parent :: outer) tag.after
          (read parent outer inner.after).prepend [inner.toElement c tag.value]
            (tag.problems ++ inner.problems)
        | .closing name =>
          let after := c.skipPast '>'
          if sameName name parent then ⟨[], .closed (c.spanTo after), [], after⟩
          else if outer.any (sameName · name) then
            ⟨[], .implicit, [⟨.unclosedTag parent, c.spanTo (c.skip (2 + name.length))⟩], c⟩
          else
            (read parent outer after).prepend []
              [⟨.mismatchedClosingTag parent name, c.spanTo after⟩] := by
  conv => lhs; rw [read, readWithin]
  split
  · rfl
  · split
    · rename_i hs
      simp only [hs]
      rfl
    · rename_i hs
      simp only [hs]
      rfl
    · rename_i hs
      simp only [hs]
      split
      · rfl
      · split <;> rfl

end Body

end CosmeticLint.Markup
