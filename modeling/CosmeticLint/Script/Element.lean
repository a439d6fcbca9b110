import CosmeticLint.Script.Parameters

/-! Elements in angle brackets. Their names, attribute values and text have a spelling of their
own, so they are read by character; what stands in braces is script again. -/

namespace CosmeticLint.Script

open Reader

variable (g : Grammar)

def isElementNameChar (c : Char) : Bool := isWordPart c || c == '-' || c == ':' || c == '.'

/-- The place of the reading, past blanks and comments. -/
def place : Reader Cursor := return (skipTrivia (← get).place).1

/-- The next character, past blanks and comments. -/
def nextChar : Reader (Option Char) := return (← place).rest.head?

def failAt {α : Type} (cause : Cause) : Reader α := do
  let c ← place
  fail cause (c.spanTo (c.skip 1))

/-- Moves past the next character, which has to be `x`. -/
def expectChar (x : Char) : Reader Unit := do
  let c ← place
  if c.rest.head? = some x then seek (c.skip 1)
  else failHere (.expected (String.singleton x) (← current).text)

/-- The name of an element or an attribute; fragments have none. -/
def elementName : Reader Unit := do seek ((← place).skipWhile isElementNameChar)

/-- Moves past the brace that closes a piece of script. -/
def closeBrace : Reader Unit := do
  let t ← current
  if t.kind == .punctuator "\x7d" then seek (t.start.skip 1)
  else failHere (.expected "\x7d" t.text)

/-- The value of an attribute: quoted text, script in braces or another element. -/
def attributeValue : Reader Unit := do
  let c ← place
  match c.rest.head? with
  | some '{' =>
    seek (c.skip 1)
    inBrackets g.assignment
    closeBrace
  | some '<' =>
    seek c
    discard <| g .element
  | some x =>
    if x = '"' || x = '\'' then
      let quoted := Quoted.ofAttribute x (c.skip 1)
      match quoted.after with
      | none => fail .unterminatedString (c.spanTo quoted.inside)
      | some after =>
        record .string quoted.value? (c.spanTo after)
        seek after
    else failAt .expressionExpected
  | none => failAt .expressionExpected

/-- One attribute; `false` at the end of the start tag. -/
def elementAttribute : Reader Bool := do
  let c ← place
  match c.rest.head? with
  | some '{' =>
    seek (c.skip 1)
    expect "..."
    inBrackets g.assignment
    closeBrace
    return true
  | some x =>
    if isWordStart x then
      elementName
      if (← nextChar) = some '=' then
        expectChar '='
        attributeValue g
      return true
    else return false
  | none => return false

/-- One child; `false` at the end tag. -/
def elementChild : Reader Bool := do
  let c := (← get).place.skipWhile fun x => x != '<' && x != '{'
  match c.rest with
  | '<' :: rest =>
    if (skipTrivia ⟨0, rest⟩).1.rest.head? = some '/' then
      seek c
      return false
    else
      seek c
      discard <| g .element
      return true
  | '{' :: _ =>
    seek (c.skip 1)
    unless (← current).kind == .punctuator "\x7d" do
      discard <| eat "..."
      inBrackets g.expression
    closeBrace
    return true
  | _ =>
    fail (.expected "</" "<eof>") (c.spanTo c)

/-- Reads an element or a fragment with its `<` as the current token. -/
def readElement : Reader Unit := do
  seek ((← current).start.skip 1)
  elementName
  if (← typeScript) && (← nextChar) = some '<' then
    seek (← place)
    typeArguments g
  loop (elementAttribute g)
  if (← nextChar) = some '/' then
    expectChar '/'
    expectChar '>'
  else
    expectChar '>'
    loop (elementChild g)
    expectChar '<'
    expectChar '/'
    elementName
    expectChar '>'

end CosmeticLint.Script
