import CosmeticLint.Markup.Problem
import CosmeticLint.Markup.Reference
import CosmeticLint.Script.Dialect
import CosmeticLint.Text.Cursor

/-! A single-file component: a sequence of top-level blocks. The first block named
`template` holds markup, script blocks hold script text, and every other block is kept
as it is written. -/

namespace CosmeticLint.Markup

inductive Quote
  | double
  | single
  deriving Repr, DecidableEq, Inhabited

def Quote.char : Quote → Char
  | double => '"'
  | single => '\''

/-- The value of an attribute; `span` takes in the quotes and `text` leaves them out. -/
structure AttributeValue where
  span : Span
  text : String
  quote : Option Quote
  deriving Repr, DecidableEq, Inhabited

def AttributeValue.decoded (v : AttributeValue) : String := Reference.decode v.text

structure Attribute where
  span : Span
  rawName : String
  value : Option AttributeValue
  deriving Repr, DecidableEq, Inhabited

namespace Attribute

/-- Names are looked up without regard to the case of ASCII letters. -/
def name (a : Attribute) : String := a.rawName.toLower

def text? (a : Attribute) : Option String := a.value.map (·.text)

/-- Directives and their shorthands are expressions, not literal values. -/
def isDirective (a : Attribute) : Bool :=
  match a.name.toList with
  | 'v' :: '-' :: _ => true
  | ':' :: _ => true
  | '@' :: _ => true
  | '#' :: _ => true
  | _ => false

/-- The first attribute with a name in lower case. -/
def find? (attributes : List Attribute) (name : String) : Option Attribute :=
  attributes.find? fun a => a.name == name

end Attribute

/-- An element without its children. `selfClosing` elements have no end tag and no children. -/
structure Element where
  span : Span
  name : String
  attributes : List Attribute
  selfClosing : Bool
  deriving Repr, DecidableEq, Inhabited

inductive Node
  | element (element : Element) (children : List Node)
  | text (span : Span) (value : String)
  | comment (span : Span) (data : String)
  deriving Repr, Inhabited

/-- A walk over nested nodes: the nodes still to visit, innermost run first. -/
structure Walk where
  pending : List (List Node)

namespace Walk

def start (nodes : List Node) : Walk := ⟨[nodes]⟩

mutual

/-- The number of nodes that a node stands for, with those inside it. -/
def count : Node → Nat
  | .element _ children => 1 + nodeCount children
  | .text .. => 1
  | .comment .. => 1

def nodeCount : List Node → Nat
  | [] => 0
  | node :: rest => count node + nodeCount rest

end

def remaining : List (List Node) → Nat
  | [] => 0
  | run :: runs => 1 + 2 * nodeCount run + remaining runs

/-- The next element in source order, and the walk after it. -/
def next? : Walk → Option (Element × Walk)
  | ⟨[]⟩ => none
  | ⟨[] :: runs⟩ => next? ⟨runs⟩
  | ⟨(.element e children :: rest) :: runs⟩ => some (e, ⟨children :: rest :: runs⟩)
  | ⟨(.text .. :: rest) :: runs⟩ => next? ⟨rest :: runs⟩
  | ⟨(.comment .. :: rest) :: runs⟩ => next? ⟨rest :: runs⟩
termination_by w => remaining w.pending
decreasing_by all_goals simp [remaining, nodeCount, count]

theorem remaining_next? {w after : Walk} {e : Element} (h : w.next? = some (e, after)) :
    remaining after.pending < remaining w.pending := by
  fun_induction next? w with
  | case1 => simp at h
  | case2 runs ih =>
    have := ih h
    simp only [remaining, nodeCount] at *
    omega
  | case3 e children rest runs =>
    simp only [Option.some.injEq, Prod.mk.injEq] at h
    obtain ⟨rfl, rfl⟩ := h
    simp only [remaining, nodeCount, count]
    omega
  | case4 _ _ rest runs ih =>
    have := ih h
    simp only [remaining, nodeCount, count] at *
    omega
  | case5 _ _ rest runs ih =>
    have := ih h
    simp only [remaining, nodeCount, count] at *
    omega

/-- Every element met until the walk ends. -/
def toList (w : Walk) : List Element :=
  match _h : w.next? with
  | none => []
  | some (e, after) => e :: after.toList
termination_by remaining w.pending
decreasing_by exact remaining_next? _h

end Walk

/-- Every element of nested nodes, each before its descendants. -/
def elements (nodes : List Node) : List Element := (Walk.start nodes).toList

structure Template where
  span : Span
  contentSpan : Span
  lang : Option String
  attributes : List Attribute
  children : List Node
  deriving Repr, Inhabited

namespace Template

/-- Markup bodies have no `lang`, or the `lang` of markup. -/
def langIsHtml : Option String → Bool
  | none => true
  | some lang => sameIgnoringCase lang.toList "html".toList

def isHtml (t : Template) : Bool := langIsHtml t.lang

def elements (t : Template) : List Element := Markup.elements t.children

end Template

structure ScriptBlock where
  span : Span
  contentSpan : Span
  content : String
  dialect : Script.Dialect
  setup : Bool
  attributes : List Attribute
  deriving Repr, Inhabited

/-- A block whose content is kept as written. -/
structure RawBlock where
  name : String
  span : Span
  contentSpan : Span
  attributes : List Attribute
  deriving Repr, Inhabited

inductive Block
  | template (block : Template)
  | script (block : ScriptBlock)
  | style (block : RawBlock)
  | custom (block : RawBlock)
  deriving Repr, Inhabited

/-- A component as read: its blocks in source order, and the problems in the order in
which they were met. -/
structure Component where
  span : Span
  blocks : List Block
  problems : List Problem
  deriving Repr, Inhabited

namespace Block

def template? : Block → Option Template
  | template b => some b
  | _ => none

def script? : Block → Option ScriptBlock
  | script b => some b
  | _ => none

def style? : Block → Option RawBlock
  | style b => some b
  | _ => none

def custom? : Block → Option RawBlock
  | custom b => some b
  | _ => none

end Block

namespace Component

def template? (c : Component) : Option Template := c.blocks.findSome? Block.template?

def scripts (c : Component) : List ScriptBlock := c.blocks.filterMap Block.script?

def styles (c : Component) : List RawBlock := c.blocks.filterMap Block.style?

def customBlocks (c : Component) : List RawBlock := c.blocks.filterMap Block.custom?

end Component

end CosmeticLint.Markup
