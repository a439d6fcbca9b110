import CosmeticLint.Markup.Body
import Mathlib.Data.List.Infix

/-! Markup as it is written: which texts, comments and elements can be written down, how
they are printed, and the nodes that they are at an offset of a text. The nodes are told
from the lengths of what is printed alone. -/

namespace CosmeticLint.Markup

/-! ### Attributes -/

/-- A value as it is written, in quotes or without. -/
structure WrittenValue where
  quote : Option Quote
  text : String

structure WrittenAttribute where
  name : String
  value : Option WrittenValue

/-- Attribute names, and values without quotes. -/
def IsWord (s : String) : Prop := s.toList ≠ [] ∧ s.toList.all isNameChar = true

instance (s : String) : Decidable (IsWord s) := inferInstanceAs (Decidable (_ ∧ _))

namespace WrittenValue

/-- A value in quotes may hold anything but its quote. -/
def WellFormed (v : WrittenValue) : Prop :=
  match v.quote with
  | none => IsWord v.text
  | some q => q.char ∉ v.text.toList

instance : DecidablePred WellFormed
  | ⟨none, text⟩ => inferInstanceAs (Decidable (IsWord text))
  | ⟨some q, text⟩ => inferInstanceAs (Decidable (q.char ∉ text.toList))

def print (v : WrittenValue) : List Char :=
  match v.quote with
  | none => v.text.toList
  | some q => q.char :: (v.text.toList ++ [q.char])

end WrittenValue

namespace WrittenAttribute

def WellFormed (a : WrittenAttribute) : Prop := IsWord a.name ∧ ∀ v ∈ a.value, v.WellFormed

instance : DecidablePred WellFormed := fun _ => inferInstanceAs (Decidable (_ ∧ _))

/-- An attribute is set off by a space. -/
def print (a : WrittenAttribute) : List Char :=
  ' ' :: (a.name.toList ++ match a.value with
    | none => []
    | some v => '=' :: v.print)

/-- The attribute printed at an offset. -/
def place (offset : Nat) (a : WrittenAttribute) : Attribute :=
  let stop := offset + byteLength a.print
  ⟨⟨offset + 1, stop⟩, a.name,
    a.value.map fun v => ⟨⟨offset + 1 + byteLength a.name.toList + 1, stop⟩, v.text, v.quote⟩⟩

end WrittenAttribute

def printAttributes : List WrittenAttribute → List Char
  | [] => []
  | a :: rest => a.print ++ printAttributes rest

def placeAttributes (offset : Nat) : List WrittenAttribute → List Attribute
  | [] => []
  | a :: rest => a.place offset :: placeAttributes (offset + byteLength a.print) rest

/-! ### Nodes -/

/-- The ways to write a node. -/
inductive Written
  | text (value : String)
  | comment (data : String)
  | selfClosed (name : String) (attributes : List WrittenAttribute)
  | void (name : String) (attributes : List WrittenAttribute)
  | rawText (name : String) (attributes : List WrittenAttribute) (content : String)
  | ordinary (name : String) (attributes : List WrittenAttribute) (children : List Written)

def IsElementName (name : String) : Prop :=
  name.toList.head?.any Char.isAlpha = true ∧
    name.toList.all (fun x => !(isBlank x || x == '/' || x == '>')) = true

instance (name : String) : Decidable (IsElementName name) := inferInstanceAs (Decidable (_ ∧ _))

/-- A start tag up to its `>` or `/>`. -/
def printTag (name : String) (attributes : List WrittenAttribute) : List Char :=
  '<' :: (name.toList ++ printAttributes attributes)

def printEndTag (name : String) : List Char := "</".toList ++ (name.toList ++ ['>'])

namespace Written

def isText : Written → Bool
  | text _ => true
  | _ => false

mutual

/-- Text does not hold markup, a comment or raw text does not hold what ends it, and elements
are written in a way that fits their name. -/
def WellFormed : Written → Prop
  | text value => value.toList ≠ [] ∧ '<' ∉ value.toList
  | comment data => ¬ "-->".toList <:+: data.toList
  | selfClosed name attributes => IsElementName name ∧ ∀ a ∈ attributes, a.WellFormed
  | void name attributes =>
    IsElementName name ∧ (∀ a ∈ attributes, a.WellFormed) ∧ isVoid name = true
  | rawText name attributes content =>
    IsElementName name ∧ (∀ a ∈ attributes, a.WellFormed) ∧ isRawText name = true ∧
      ¬ ("</".toList ++ name.toList).map Char.toLower <:+: content.toList.map Char.toLower
  | ordinary name attributes children =>
    IsElementName name ∧ (∀ a ∈ attributes, a.WellFormed) ∧ isVoid name = false ∧
      isRawText name = false ∧ AllWellFormed children

/-- No two texts stand side by side. -/
def AllWellFormed : List Written → Prop
  | [] => True
  | w :: rest => w.WellFormed ∧ (w.isText = true → rest.head?.any isText = false) ∧
      AllWellFormed rest

end

mutual

def decWellFormed : (w : Written) → Decidable w.WellFormed
  | text _ => inferInstanceAs (Decidable (_ ∧ _))
  | comment _ => inferInstanceAs (Decidable (¬ _))
  | selfClosed _ _ => inferInstanceAs (Decidable (_ ∧ _))
  | void _ _ => inferInstanceAs (Decidable (_ ∧ _))
  | rawText _ _ _ => inferInstanceAs (Decidable (_ ∧ _))
  | ordinary _ _ children =>
    have := decAllWellFormed children
    inferInstanceAs (Decidable (_ ∧ _ ∧ _ ∧ _ ∧ AllWellFormed children))

def decAllWellFormed : (ws : List Written) → Decidable (AllWellFormed ws)
  | [] => isTrue trivial
  | w :: rest =>
    have := decWellFormed w
    have := decAllWellFormed rest
    inferInstanceAs (Decidable (w.WellFormed ∧ _ ∧ AllWellFormed rest))

end

instance : DecidablePred AllWellFormed := decAllWellFormed

mutual

def print : Written → List Char
  | text value => value.toList
  | comment data => "<!--".toList ++ (data.toList ++ "-->".toList)
  | selfClosed name attributes => printTag name attributes ++ " />".toList
  | void name attributes => printTag name attributes ++ ['>']
  | rawText name attributes content =>
    printTag name attributes ++ ('>' :: (content.toList ++ printEndTag name))
  | ordinary name attributes children =>
    printTag name attributes ++ ('>' :: (printAll children ++ printEndTag name))

def printAll : List Written → List Char
  | [] => []
  | w :: rest => w.print ++ printAll rest

end

/-- The place of what is printed at an offset. -/
def spanAt (offset : Nat) (w : Written) : Span := ⟨offset, offset + byteLength w.print⟩

/-- The attributes of an element printed at an offset. -/
def attributesAt (offset : Nat) (name : String) (attributes : List WrittenAttribute) :
    List Attribute :=
  placeAttributes (offset + byteLength ('<' :: name.toList)) attributes

/-- Where the content of an element printed at an offset begins. -/
def contentAt (offset : Nat) (name : String) (attributes : List WrittenAttribute) : Nat :=
  offset + byteLength (printTag name attributes ++ ['>'])

mutual

/-- The node printed at an offset. Void elements are kept like self-closing ones. -/
def place (offset : Nat) : Written → Node
  | text value => .text (spanAt offset (text value)) value
  | comment data => .comment (spanAt offset (comment data)) data
  | selfClosed name attributes =>
    .element ⟨spanAt offset (selfClosed name attributes), name,
      attributesAt offset name attributes, true⟩ []
  | void name attributes =>
    .element ⟨spanAt offset (void name attributes), name,
      attributesAt offset name attributes, true⟩ []
  | rawText name attributes content =>
    .element ⟨spanAt offset (rawText name attributes content), name,
        attributesAt offset name attributes, false⟩
      [.text (spanAt (contentAt offset name attributes) (text content)) content]
  | ordinary name attributes children =>
    .element ⟨spanAt offset (ordinary name attributes children), name,
        attributesAt offset name attributes, false⟩
      (placeAll (contentAt offset name attributes) children)

def placeAll (offset : Nat) : List Written → List Node
  | [] => []
  | w :: rest => w.place offset :: placeAll (offset + byteLength w.print) rest

end

end Written

end CosmeticLint.Markup
