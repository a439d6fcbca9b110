import CosmeticLint.Text.Alphanumeric
import CosmeticLint.Text.Split

/-! Element-hiding rules. A line of a filter list that begins with `##` hides the elements that
match the selector after it; rules for single sites and exceptions begin otherwise and are not
taken. A selector is sorted by its leading punctuation. -/

namespace CosmeticLint.FilterList

/-- A selector by what it matches. Ids and classes are held without their mark. -/
inductive Selector
  | id (name : String)
  | class (name : String)
  | simpleAttribute (text : String)
  | complexAttribute (text : String)
  | element (text : String)
  deriving Repr, DecidableEq, Inhabited

/-- The characters of a plain attribute name. -/
def isAttributeNameChar (c : Char) : Bool := isAlphanumeric c || c == '-' || c == '_'

/-- Whether a text is `[name]` with nothing but an attribute's name in the brackets. -/
def isSimpleAttribute (text : List Char) : Bool :=
  match text with
  | '[' :: rest =>
    rest.getLast? == some ']' && !rest.dropLast.isEmpty && rest.dropLast.all isAttributeNameChar
  | _ => false

/-- The first test that fits decides, and the last one always does. -/
def Selector.classify (text : String) : Selector :=
  match text.toList with
  | '#' :: name => .id (String.ofList name)
  | '.' :: name => .class (String.ofList name)
  | chars =>
    if isSimpleAttribute chars then .simpleAttribute text
    else if chars.contains '[' && chars.contains ']' then .complexAttribute text
    else .element text

/-- The selector of a rule that holds on every site. -/
def genericSelector? : List Char → Option String
  | '#' :: '#' :: selector => some (String.ofList selector)
  | _ => none

/-- The selectors of a filter list in the order of its lines. -/
def hidingSelectors (text : String) : List String :=
  (splitAtChar '\n' text.toList).filterMap fun line => genericSelector? (dropCarriageReturn line)

end CosmeticLint.FilterList
