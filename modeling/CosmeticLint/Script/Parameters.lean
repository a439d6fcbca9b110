import CosmeticLint.Script.Reader

/-! Parameter lists, argument lists, names of properties and the decorators in front of
classes, members and parameters. -/

namespace CosmeticLint.Script

open Reader

variable (g : Grammar)

/-- An optional type after a colon. -/
def typeAfterColon : Reader Unit := do
  if ← typeScript then
    if ← eat ":" then inBrackets g.typeExpr

/-- An optional value after `=`. -/
def initializer : Reader Unit := do
  if ← eat "=" then g.assignment

/-- Arguments, from the parenthesis on. -/
def arguments : Reader Unit := do
  expect "("
  inBrackets <| commaList ")" do
    discard <| eat "..."
    g.assignment

/-- Types between angle brackets. -/
def typeArguments : Reader Unit := do
  expectAngle '<'
  inBrackets <| loop do
    g.typeExpr
    eat ","
  expectAngle '>'

/-- Whether the current word says something about the name that follows it, rather than being
a name itself. -/
def isModifier : Reader Bool := do
  match (← following).kind with
  | .word _ | .string _ | .number | .privateName => return true
  | .punctuator p => return p == "[" || p == "\x7b" || p == "*"
  | _ => return false

/-- Type parameters between angle brackets. The answer tells whether they can be nothing else,
since an element's start tag holds no comma and no constraint. -/
def typeParameters : Reader Bool := do
  expectAngle '<'
  let before := (← get).place
  inBrackets <| loop do
    loop do
      let word := (← current).text
      if ["const", "in", "out"].contains word && (← isModifier) then
        advance
        return true
      else return false
    unless ← atAnyWord do failHere (.unexpected (← current).text)
    advance
    if ← eatWord "extends" then g.typeExpr
    if ← eat "=" then g.typeExpr
    if ← eat "," then return !((← current).start.rest.head? = some '>')
    else return false
  let after := (← get).place
  expectAngle '>'
  let text := before.rest.take (before.rest.length - after.rest.length)
  return text.contains ',' || (searchFor "extends ".toList.isPrefixOf text).isSome

def optionalTypeParameters : Reader Unit := do
  if (← typeScript) && (← atMark "<") then discard <| typeParameters g

/-- Decorators: `@` and a name with its arguments, or an expression in parentheses. -/
def decorators : Reader Unit := loop do
  if ← eat "@" then
    if ← eat "(" then
      inBrackets g.expression
      expect ")"
    else
      unless ← atAnyWord do failHere .expressionExpected
      advance
      loop do
        if ← eat "." then
          advance
          return true
        else return false
      if (← typeScript) && (← atMark "<") then typeArguments g
      if ← atMark "(" then arguments g
    return true
  else return false

def parameterModifiers : List String := ["public", "private", "protected", "readonly", "override"]

def parameter : Reader Unit := do
  decorators g
  if ← typeScript then
    loop do
      if parameterModifiers.contains (← current).text && (← isModifier) then
        advance
        return true
      else return false
  discard <| eat "..."
  if ← atWord "this" then advance else g.binding
  if ← typeScript then discard <| eat "?"
  typeAfterColon g
  initializer g

/-- Parameters, from the parenthesis on. -/
def parameters : Reader Unit := do
  expect "("
  inBrackets <| commaList ")" (parameter g)

/-- The name of a property: a word, a literal, a private name or an expression in brackets. -/
def propertyName : Reader Unit := do
  match (← current).kind with
  | .word _ | .string _ | .number | .privateName => advance
  | _ =>
    if ← eat "[" then
      inBrackets g.assignment
      expect "]"
    else failHere (.unexpected (← current).text)

end CosmeticLint.Script
