import CosmeticLint.Markup.Blocks
import CosmeticLint.Proofs.Text.Bytes

/-! Reading by byte offsets. The text is looked at through ranges of offsets only, a place is a
number, and spans keep the low 32 bits of their ends. Nothing is taken for granted: a range that
does not slice the text, a difference below zero, a loop that does not move on and a branch that
is there for form's sake are all faults, and a fault ends the reading. -/

namespace CosmeticLint.Markup.Offsets

inductive Fault
  /-- The range is reversed, leaves the text or cuts a character. -/
  | range (start stop : Nat)
  /-- The second number is greater than the first. -/
  | difference (a b : Nat)
  /-- The reading of what stands at `offset` stops at `after`, no later place of the text. -/
  | stuck (offset after : Nat)
  /-- The tokens of a tag end with the `=` of an attribute. -/
  | tokensEnd
  /-- The body of a template ends before the end tag of an element around the template. -/
  | endTagAround
  deriving Repr, DecidableEq

/-! ### Ranges and searches -/

/-- The text of a range. -/
def slice (text : List Char) (start stop : Nat) : Except Fault (List Char) :=
  match (Span.mk start stop).slice? text with
  | some w => .ok w
  | none => .error (.range start stop)

/-- The text from an offset on. -/
def sliceFrom (text : List Char) (start : Nat) : Except Fault (List Char) :=
  slice text start (byteLength text)

def difference (a b : Nat) : Except Fault Nat :=
  if b ≤ a then .ok (a - b) else .error (.difference a b)

/-- The offset of the first character of some kind. -/
def findChar (p : Char → Bool) (text : List Char) : Option Nat :=
  let w := text.takeWhile (!p ·)
  if w.length < text.length then some (byteLength w) else none

/-- The offset of the first occurrence of a word. -/
def findWord (word text : List Char) : Option Nat :=
  (searchFor word.isPrefixOf text).map fun n => byteLength (text.take n)

/-- `after` is a later place of the text than `offset`. -/
def MovesOn (text : List Char) (offset after : Nat) : Prop :=
  offset < after ∧ after ≤ byteLength text

instance (text : List Char) (offset after : Nat) : Decidable (MovesOn text offset after) :=
  inferInstanceAs (Decidable (_ ∧ _))

/-- The offset behind the next `>`, or the end of the text if there is none. -/
def skipPast (text : List Char) (offset : Nat) : Except Fault Nat := do
  let rest ← sliceFrom text offset
  return match findChar (· == '>') rest with
    | some n => offset + n + 1
    | none => byteLength text

/-- Whether `<` and a letter stand at the head of a text. -/
def atStartTag (rest : List Char) : Bool :=
  rest.head? == some '<' && rest.tail.head?.any Char.isAlpha

/-! ### Nodes without markup inside -/

/-- Something read from the text, the problems met on the way, and the offset behind it. -/
structure ReadTo (α : Type) where
  value : α
  problems : List Problem
  after : Nat

def readComment (text : List Char) (offset : Nat) : Except Fault (ReadTo Node) := do
  let start := offset + 4
  let body ← sliceFrom text start
  match findWord "-->".toList body with
  | some n =>
    let data ← slice text start (start + n)
    let after := start + n + 3
    return ⟨.comment (.truncated offset after) (String.ofList data), [], after⟩
  | none =>
    let after := byteLength text
    let data ← slice text start after
    return ⟨.comment (.truncated offset after) (String.ofList data),
      [⟨.unterminatedComment, .truncated offset after⟩], after⟩

def readText (text : List Char) (offset : Nat) : Except Fault (ReadTo Node) := do
  let rest ← sliceFrom text offset
  let first := rest.head?.elim 1 Char.utf8Size
  let tail ← sliceFrom rest first
  let after := (findChar (· == '<') tail).elim (byteLength text) (offset + first + ·)
  let value ← slice text offset after
  return ⟨.text (.truncated offset after) (String.ofList value), [], after⟩

/-- Content up to the first `</name`, found byte by byte. -/
def readRawContent (text : List Char) (name : String) (offset : Nat) :
    Except Fault (ReadTo Span) := do
  let rest ← sliceFrom text offset
  match findIgnoringCase ('<' :: '/' :: name.toList) rest with
  | some n =>
    let after ← skipPast text (offset + n)
    return ⟨.truncated offset (offset + n), [], after⟩
  | none =>
    let span := Span.truncated offset (byteLength text)
    return ⟨span, [⟨.unclosedTag name, span⟩], byteLength text⟩

def endTagName (text : List Char) (offset : Nat) : Except Fault String := do
  let rest ← sliceFrom text offset
  let tail ← sliceFrom rest 2
  let length ← (findChar (fun x => isBlank x || x == '>') tail).elim
    (difference (byteLength rest) 2) .ok
  let name ← slice text (offset + 2) (offset + 2 + length)
  return String.ofList name

/-! ### Start tags -/

/-- A token without its text. -/
structure Mark where
  kind : Token.Kind
  span : Span

def Mark.ofToken (t : Token) : Mark := ⟨t.kind, .truncated t.span.start t.span.stop⟩

def Mark.text (text : List Char) (m : Mark) : Except Fault (List Char) :=
  slice text m.span.start m.span.stop

/-- The text between two quotes. -/
def unquoted (word : List Char) : Except Fault String := do
  let stop ← difference (byteLength word) 1
  let inside ← slice word 1 stop
  return String.ofList inside

/-- The value that a token behind `=` gives, if it gives one. -/
def value? (text : List Char) (m : Mark) : Except Fault (Option AttributeValue) := do
  let word ← m.text text
  match m.kind with
  | .doubleQuoted =>
    let value ← unquoted word
    return some ⟨m.span, value, some .double⟩
  | .singleQuoted =>
    let value ← unquoted word
    return some ⟨m.span, value, some .single⟩
  | .name => return some ⟨m.span, String.ofList word, none⟩
  | _ => return none

/-- What the tokens of a tag tell: besides attributes and problems, how and where it stops. -/
structure TagTail where
  attributes : List Attribute
  problems : List Problem
  selfClosing : Bool
  stop : Nat

def TagTail.prepend (attributes : List Attribute) (problems : List Problem) (t : TagTail) :
    TagTail :=
  { t with attributes := attributes ++ t.attributes, problems := problems ++ t.problems }

def readMarks (text : List Char) (unclosed : Problem) : List Mark → Except Fault TagTail
  | [] => .ok ⟨[], [], false, byteLength text⟩
  | m :: ms =>
    match m.kind with
    | .close => .ok ⟨[], [], false, m.span.stop⟩
    | .selfClose => .ok ⟨[], [], true, m.span.stop⟩
    | .endOfSource => .ok ⟨[], [unclosed], false, byteLength text⟩
    | .slash => readMarks text unclosed ms
    | .equals | .doubleQuoted | .singleQuoted | .invalid => do
      let more ← readMarks text unclosed ms
      return more.prepend [] [⟨.invalidAttribute ("unexpected " ++ m.kind.label), m.span⟩]
    | .name => do
      let word ← m.text text
      let name := String.ofList word
      match ms with
      | [] => return ⟨[⟨m.span, name, none⟩], [], false, byteLength text⟩
      | e :: rest =>
        if e.kind = .equals then
          match rest with
          | [] => throw .tokensEnd
          | v :: rest' =>
            match ← value? text v with
            | some value =>
              let more ← readMarks text unclosed rest'
              return more.prepend [⟨⟨m.span.start, v.span.stop⟩, name, some value⟩] []
            | none =>
              let more ← readMarks text unclosed (v :: rest')
              return more.prepend [⟨m.span, name, none⟩]
                [⟨.invalidAttribute ("missing value for `" ++ name ++ "`"), v.span⟩]
        else
          let more ← readMarks text unclosed (e :: rest)
          return more.prepend [⟨m.span, name, none⟩] []

def readStartTag (text : List Char) (offset : Nat) : Except Fault (ReadTo StartTag) := do
  let start := offset + 1
  let rest ← sliceFrom text start
  let length ← (findChar (fun x => isBlank x || x == '/' || x == '>') rest).elim
    (difference (byteLength text) start) .ok
  let word ← slice text start (start + length)
  let name := String.ofList word
  let inside ← sliceFrom text (start + length)
  let marks := (Token.ofTag ⟨start + length, inside⟩).1.map Mark.ofToken
  let unclosed : Problem := ⟨.unclosedTag name, .truncated offset (byteLength text)⟩
  let tail ← readMarks text unclosed marks
  return ⟨⟨.truncated offset tail.stop, name, tail.attributes, tail.selfClosing⟩, tail.problems,
    tail.stop⟩

/-! ### Bodies -/

/-- What stands at an offset in a template's body. -/
inductive StepTo
  | node (read : ReadTo Node)
  | opening (read : ReadTo StartTag)
  | closing (name : String)

def step (text : List Char) (offset : Nat) : Except Fault StepTo := do
  let rest ← sliceFrom text offset
  if "<!--".toList.isPrefixOf rest then
    let comment ← readComment text offset
    return .node comment
  else if "</".toList.isPrefixOf rest then
    let name ← endTagName text offset
    return .closing name
  else if atStartTag rest then
    let tag ← readStartTag text offset
    if tag.value.selfClosing || isVoid tag.value.name then
      return .node ⟨.element ⟨tag.value.span, tag.value.name, tag.value.attributes, true⟩ [],
        tag.problems, tag.after⟩
    else if isRawText tag.value.name then
      let content ← readRawContent text tag.value.name tag.after
      let value ← slice text content.value.start content.value.stop
      return .node ⟨.element ⟨.truncated offset content.after, tag.value.name,
          tag.value.attributes, false⟩ [.text content.value (String.ofList value)],
        tag.problems ++ content.problems, content.after⟩
    else return .opening tag
  else
    let node ← readText text offset
    return .node node

/-- A run of sibling nodes that stops at an offset. -/
structure BodyTo where
  nodes : List Node
  ending : Ending
  problems : List Problem
  after : Nat

def BodyTo.prepend (nodes : List Node) (problems : List Problem) (b : BodyTo) : BodyTo :=
  { b with nodes := nodes ++ b.nodes, problems := problems ++ b.problems }

/-- A reading with a stack of the names of the open elements, the innermost on top. -/
abbrev WithOpen := StateT (List String) (Except Fault)

def push (name : String) : WithOpen Unit := modify (name :: ·)

def pop : WithOpen Unit := modify List.tail

/-- Reads the children of `parent`, the name on top of the stack. The reading goes on, and goes into
an element, only at a later offset than where it was: that is why it ends. -/
def readBody (text : List Char) (parent : String) (offset : Nat) : WithOpen BodyTo :=
  if _hend : byteLength text ≤ offset then
    return ⟨[], .endOfSource, [⟨.unclosedTag parent, .truncated offset offset⟩], offset⟩
  else do
    match ← step text offset with
    | .node r =>
      if _hafter : MovesOn text offset r.after then
        let more ← readBody text parent r.after
        return more.prepend [r.value] r.problems
      else throw (.stuck offset r.after)
    | .opening tag =>
      if _hafter : MovesOn text offset tag.after then
        push tag.value.name
        let inner ← readBody text tag.value.name tag.after
        pop
        if _hinner : MovesOn text offset inner.after then
          let element := Node.element ⟨.truncated offset inner.after, tag.value.name,
            tag.value.attributes, false⟩ inner.nodes
          let more ← readBody text parent inner.after
          return more.prepend [element] (tag.problems ++ inner.problems)
        else throw (.stuck offset inner.after)
      else throw (.stuck offset tag.after)
    | .closing name =>
      if sameName name parent then
        let after ← skipPast text offset
        return ⟨[], .closed (.truncated offset after), [], after⟩
      else if (← get).any (sameName · name) then
        let stop := offset + 2 + byteLength name.toList
        return ⟨[], .implicit, [⟨.unclosedTag parent, .truncated offset stop⟩], offset⟩
      else
        let after ← skipPast text offset
        if _hafter : MovesOn text offset after then
          let more ← readBody text parent after
          return more.prepend [] [⟨.mismatchedClosingTag parent name, .truncated offset after⟩]
        else throw (.stuck offset after)
termination_by byteLength text - offset
decreasing_by
  all_goals simp only [MovesOn] at *; omega

/-! ### Blocks -/

/-- Where the content of a template stops. -/
def BodyTo.contentStop (b : BodyTo) : Except Fault Nat :=
  match b.ending with
  | .closed endTag => .ok endTag.start
  | .endOfSource => .ok b.after
  | .implicit => .error .endTagAround

def readTemplate (text : List Char) (offset : Nat) (tag : ReadTo StartTag) :
    WithOpen (ReadTo Template) := do
  let attributes := tag.value.attributes
  let lang := (Attribute.find? attributes "lang").bind Attribute.text?
  if tag.value.selfClosing then
    return ⟨⟨tag.value.span, .empty tag.value.span.stop, lang, attributes, []⟩, tag.problems,
      tag.after⟩
  else if Template.langIsHtml lang then
    push tag.value.name
    let body ← readBody text tag.value.name tag.after
    pop
    let contentStop ← body.contentStop
    return ⟨⟨.truncated offset body.after, .truncated tag.value.span.stop contentStop, lang,
      attributes, body.nodes⟩, tag.problems ++ body.problems, body.after⟩
  else
    let content ← readRawContent text tag.value.name tag.after
    return ⟨⟨.truncated offset content.after, content.value, lang, attributes, []⟩,
      tag.problems ++ content.problems, content.after⟩

def readRawBlock (text : List Char) (tag : ReadTo StartTag) : Except Fault (ReadTo Span) := do
  if tag.value.selfClosing then
    return ⟨.empty tag.value.span.stop, tag.problems, tag.value.span.stop⟩
  else
    let content ← readRawContent text tag.value.name tag.after
    return ⟨content.value, tag.problems ++ content.problems, content.after⟩

def readBlock (text : List Char) (templateSeen : Bool) (offset : Nat) :
    WithOpen (ReadTo Block) := do
  let tag ← readStartTag text offset
  let name := tag.value.name
  let attributes := tag.value.attributes
  if sameName name "template" && !templateSeen then
    let template ← readTemplate text offset tag
    return ⟨.template template.value, template.problems, template.after⟩
  else
    let content ← readRawBlock text tag
    let span := Span.truncated offset content.after
    if sameName name "script" then
      let word ← slice text content.value.start content.value.stop
      let script : ScriptBlock :=
        { span
          contentSpan := content.value
          content := String.ofList word
          dialect := .ofLang ((Attribute.find? attributes "lang").bind Attribute.text?)
          setup := (Attribute.find? attributes "setup").isSome
          attributes }
      return ⟨.script script, content.problems, content.after⟩
    else if sameName name "style" then
      return ⟨.style ⟨name, span, content.value, attributes⟩, content.problems, content.after⟩
    else
      return ⟨.custom ⟨name, span, content.value, attributes⟩, content.problems, content.after⟩

/-- What stands at the next `<`: the block that it begins, if it begins one. -/
def readTopLevel (text : List Char) (templateSeen : Bool) (offset : Nat) :
    WithOpen (ReadTo (Option Block)) := do
  let rest ← sliceFrom text offset
  if "<!--".toList.isPrefixOf rest then
    let comment ← readComment text offset
    return ⟨none, comment.problems, comment.after⟩
  else if "</".toList.isPrefixOf rest then
    let after ← skipPast text offset
    let found ← slice text (offset + 2) after
    return ⟨none, [⟨.mismatchedClosingTag "a top-level block"
      (String.ofList (trimBlanks (trimEnd (· == '>') found))), .truncated offset after⟩], after⟩
  else if atStartTag rest then
    let block ← readBlock text templateSeen offset
    return ⟨some block.value, block.problems, block.after⟩
  else return ⟨none, [], offset + 1⟩

/-- Reads blocks to the end of the text, each time from a later offset. -/
def readBlocks (text : List Char) (templateSeen : Bool) (offset : Nat) :
    WithOpen (List Block × List Problem) :=
  if _hend : byteLength text ≤ offset then return ([], [])
  else do
    let rest ← sliceFrom text offset
    match findChar (· == '<') rest with
    | none => return ([], [])
    | some n =>
      let r ← readTopLevel text templateSeen (offset + n)
      if _hafter : MovesOn text offset r.after then
        let seen := templateSeen || (r.value.bind Block.template?).isSome
        let (blocks, problems) ← readBlocks text seen r.after
        return (r.value.toList ++ blocks, r.problems ++ problems)
      else throw (.stuck offset r.after)
termination_by byteLength text - offset
decreasing_by
  simp only [MovesOn] at *
  omega

/-- Reads a component. No element is open at first. -/
def component (source : String) : Except Fault Component := do
  let text := source.toList
  let (blocks, problems) ← (readBlocks text false 0).run' []
  return ⟨.truncated 0 (byteLength text), blocks, problems⟩

end CosmeticLint.Markup.Offsets
