import CosmeticLint.Script.TypeExpr

/-! Blocks, functions and classes. -/

namespace CosmeticLint.Script

open Reader

variable (g : Grammar)

/-- Statements between braces. A script that ends before the closing brace is accepted, and
the missing brace recorded. -/
def block : Reader Unit := do
  expect "\x7b"
  inBrackets <| loop do
    if (← atMark "\x7d") || (← atEnd) then return false
    g.statement
    return true
  if ← atEnd then recover (.expected "\x7d" "<eof>") (← current).span
  else expect "\x7d"

def functionBody : Reader Unit := inFunctionBody (block g)

/-- A body, or the semicolon of a declaration without one. -/
def optionalBody : Reader Unit := do
  if (← typeScript) && !(← atMark "\x7b") then semicolon else functionBody g

/-- A method after its name. -/
def method : Reader Unit := do
  signature g
  optionalBody g

/-- A function from the word `function` on; its name may be missing. -/
def function : Reader Unit := do
  expectWord "function"
  discard <| eat "*"
  if ← atAnyWord then advance
  signature g
  optionalBody g

/-! ### Classes -/

def memberModifiers : Bool → List String
  | true => ["static", "async", "get", "set", "accessor", "readonly", "public", "private",
      "protected", "abstract", "override", "declare"]
  | false => ["static", "async", "get", "set", "accessor"]

/-- A field or method, its modifiers and decorators before it. -/
def classMember : Reader Unit := do
  decorators g
  if (← atWord "static") && (← followedBy ["\x7b"]) then
    advance
    functionBody g
  else
    let modifiers := memberModifiers (← typeScript)
    loop do
      if modifiers.contains (← current).text && (← isModifier) then
        advance
        return true
      else return false
    discard <| eat "*"
    if (← typeScript) && (← atMark "[") then bracketedMember g else propertyName g
    if ← typeScript then unless ← eat "?" do discard <| eat "!"
    if (← atMark "(") || (← atMark "<") then method g
    else
      typeAfterColon g
      inFunctionBody (initializer g)
      semicolon

def classMembers : Reader Unit := do
  expect "\x7b"
  inBrackets <| loop do
    if ← atMark "\x7d" then return false
    unless ← eat ";" do classMember g
    return true
  expect "\x7d"

/-- Types or expressions that a class or interface is built on. -/
def heritage : Reader Unit := do
  if ← eatWord "extends" then
    discard <| g .operand
    if ← typeScript then
      if ← atMark "<" then typeArguments g
  if ← typeScript then
    if ← eatWord "implements" then
      loop do
        g.typeExpr
        eat ","

/-- A class from the word `class` on; its name may be missing. -/
def classRest : Reader Unit := do
  expectWord "class"
  if (← atAnyWord) && !(← atWord "extends") && !(← atWord "implements") then advance
  optionalTypeParameters g
  heritage g
  classMembers g

end CosmeticLint.Script
