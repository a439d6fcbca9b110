import CosmeticLint.Markup.Document
import CosmeticLint.Markup.Token

/-! Start tags: a name, then attributes. A name token not used as a value begins an
attribute; `=` and a value may follow it. Any other token is reported and passed over. -/

namespace CosmeticLint.Markup

/-- Something read from the source, the problems met on the way, and the place after it. -/
structure Read (α : Type) where
  value : α
  problems : List Problem
  after : Cursor

structure StartTag where
  span : Span
  name : String
  attributes : List Attribute
  selfClosing : Bool
  deriving Repr, DecidableEq, Inhabited

/-- The text between the quotes of a quoted token. -/
def withoutQuotes (text : String) : String := String.ofList text.toList.tail.dropLast

/-- The value that a token after `=` gives, if it gives one. -/
def AttributeValue.ofToken? (t : Token) : Option AttributeValue :=
  match t.kind with
  | .doubleQuoted => some ⟨t.span, withoutQuotes t.text, some .double⟩
  | .singleQuoted => some ⟨t.span, withoutQuotes t.text, some .single⟩
  | .name => some ⟨t.span, t.text, none⟩
  | _ => none

namespace Attribute

/-- An attribute that is only a name. -/
def bare (t : Token) : Attribute := ⟨t.span, t.text, none⟩

def withValue (t : Token) (v : AttributeValue) : Attribute :=
  ⟨⟨t.span.start, v.span.stop⟩, t.text, some v⟩

end Attribute

namespace StartTag

def unexpected (t : Token) : Problem := ⟨.invalidAttribute ("unexpected " ++ t.kind.label), t.span⟩

def missingValue (name value : Token) : Problem :=
  ⟨.invalidAttribute ("missing value for `" ++ name.text ++ "`"), value.span⟩

/-- The attributes that the tokens of a tag spell, and what is wrong with the tokens. The
last token ends the list; `unclosed` is the problem when that is the end of the source. -/
def readTokens (unclosed : Problem) : List Token → List Attribute × List Problem
  | [] => ([], [])
  | t :: ts =>
    match t.kind with
    | .close | .selfClose => ([], [])
    | .endOfSource => ([], [unclosed])
    | .slash => readTokens unclosed ts
    | .equals | .doubleQuoted | .singleQuoted | .invalid =>
      let (attributes, problems) := readTokens unclosed ts
      (attributes, unexpected t :: problems)
    | .name =>
      match ts with
      | [] => ([.bare t], [])
      | e :: rest =>
        if e.kind = .equals then
          match rest with
          | [] => ([.bare t], [])
          | v :: rest' =>
            match AttributeValue.ofToken? v with
            | some value =>
              let (attributes, problems) := readTokens unclosed rest'
              (.withValue t value :: attributes, problems)
            | none =>
              let (attributes, problems) := readTokens unclosed (v :: rest')
              (.bare t :: attributes, missingValue t v :: problems)
        else
          let (attributes, problems) := readTokens unclosed (e :: rest)
          (.bare t :: attributes, problems)

/-- The characters of a tag's name. -/
def isTagNameChar (c : Char) : Bool := !(isBlank c || c == '/' || c == '>')

/-- Reads a start tag with the cursor on its `<`. A tag that no `>` ends reaches to the
end of the source. -/
def read (c : Cursor) : Read StartTag :=
  let nameStart := c.skip 1
  let name := nameStart.rest.takeWhile isTagNameChar
  let (tokens, after) := Token.ofTag (nameStart.skip name.length)
  let unclosed : Problem := ⟨.unclosedTag (String.ofList name), c.spanTo after⟩
  let (attributes, problems) := readTokens unclosed tokens
  { value :=
      { span := c.spanTo after
        name := String.ofList name
        attributes
        selfClosing := tokens.getLast?.any (·.kind == .selfClose) }
    problems
    after }

theorem length_read_lt {c : Cursor} (hc : c.rest ≠ []) :
    (read c).after.rest.length < c.rest.length :=
  Nat.lt_of_le_of_lt (Token.length_ofTag_le _)
    (Nat.lt_of_le_of_lt (Cursor.length_skip_le _ _) (Cursor.length_skip_lt (by omega) hc))

end StartTag

end CosmeticLint.Markup
