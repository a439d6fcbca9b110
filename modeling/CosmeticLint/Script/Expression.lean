import CosmeticLint.Script.Element
import CosmeticLint.Script.Function

/-! Expressions. Operators are read as a flat sequence, as no tree is wanted. Parentheses may
turn out to hold parameters: their content is read in a way that fits both, and an arrow
after them decides. -/

namespace CosmeticLint.Script

open Reader

variable (g : Grammar)

/-- Words that cannot stand for a value. -/
def reservedWords : List String :=
  ["break", "case", "catch", "class", "const", "continue", "debugger", "default", "delete", "do",
    "else", "enum", "export", "extends", "finally", "for", "function", "if", "import", "in",
    "instanceof", "new", "return", "super", "switch", "throw", "try", "typeof", "var", "void",
    "while", "with"]

/-- Words that stand for a value without naming it. -/
def constantWords : List String := ["this", "null", "true", "false"]

def assignmentOperators : List String :=
  ["=", "+=", "-=", "*=", "/=", "%=", "**=", "<<=", ">>=", ">>>=", "&=", "|=", "^=", "&&=", "||=",
    "??="]

def binaryOperators : List String :=
  ["||", "&&", "??", "|", "^", "&", "==", "!=", "===", "!==", "<", ">", "<=", ">=", "<<", ">>",
    ">>>", "+", "-", "*", "/", "%", "**"]

/-! ### Literals -/

/-- The number of characters of a regular expression after its first slash, up to and
including the last; the error holds how many there are before the line ends. A slash in a
class does not end it. -/
def regExpLength (inClass : Bool) : List Char → Except Nat Nat
  | [] => .error 0
  | '\\' :: c :: rest =>
    if isLineEnd c then .error 1
    else match regExpLength inClass rest with
      | .ok n => .ok (n + 2)
      | .error n => .error (n + 2)
  | c :: rest =>
    if isLineEnd c then .error 0
    else if c = '/' && !inClass then .ok 1
    else
      match regExpLength (if c = '[' then true else if c = ']' then false else inClass) rest with
      | .ok n => .ok (n + 1)
      | .error n => .error (n + 1)

/-- Reads a regular expression whose first slash starts the current token. -/
def regExp : Reader Unit := do
  let start := (← current).start
  match regExpLength false start.rest.tail with
  | .ok n => seek ((start.skip (n + 1)).skipWhile isWordPart)
  | .error n => fail .unterminatedRegExp (start.spanTo (start.skip (n + 1)))

/-- A property of an object literal. -/
def property : Reader Unit := do
  if ← eat "..." then g.assignment
  else
    loop do
      if ["async", "get", "set"].contains (← current).text && (← isModifier) then
        advance
        return true
      else return false
    discard <| eat "*"
    propertyName g
    if (← atMark "(") || (← atMark "<") then method g
    else if ← eat ":" then g.assignment
    else initializer g

def objectLiteral : Reader Unit := do
  expect "\x7b"
  inBrackets <| commaList "\x7d" (property g)

/-- Elements of an array may be missing. -/
def arrayLiteral : Reader Unit := do
  expect "["
  inBrackets <| loop do
    if ← atMark "]" then return false
    if ← eat "," then return true
    discard <| eat "..."
    g.assignment
    unless ← atMark "]" do expect ","
    return true
  expect "]"

/-! ### Arrow functions -/

/-- The body of an arrow function, from the arrow on. -/
def arrowBody : Reader Unit := do
  expect "=>"
  if ← atMark "\x7b" then functionBody g
  else withReader (fun ctx => { ctx with inFunction := true }) g.assignment

def atArrow : Reader Bool := return (← atMark "=>") && !(← newlineBefore)

/-- An arrow function from its parameters on. -/
def arrowFunction : Reader Unit := do
  parameters g
  typeAfterColon g
  arrowBody g

/-- What stands in parentheses: an expression, or the parameters of an arrow function. -/
def parenthesized : Reader Shape := do
  expect "("
  let isEmpty ← atMark ")"
  inBrackets <| commaList ")" do
    discard <| eat "..."
    g.assignment
    if ← typeScript then
      discard <| eat "?"
      typeAfterColon g
      initializer g
  if ← atArrow then
    arrowBody g
    return .arrow
  if (← typeScript) && (← atMark ":") then
    let tentative := (← read).inConsequent
    let result ← attempt do
      typeAfterColon g
      unless ← atArrow do failHere .expressionExpected
      arrowBody g
      if tentative then
        unless ← atMark ":" do failHere .expressionExpected
    if result.isSome then return .arrow
  if isEmpty then failHere .expressionExpected
  return .other

/-! ### Operands -/

/-- A name, a literal or a construct in brackets. -/
def primary : Reader Shape := do
  let t ← current
  match t.kind with
  | .word "function" =>
    function g
    return .other
  | .word "class" =>
    classRest g
    return .other
  | .word "new" =>
    advance
    if ← eat "." then
      advance
      return .other
    else
      discard <| g .operand
      return .other
  | .word "import" =>
    advance
    unless (← atMark "(") || (← atMark ".") do failHere .expressionExpected
    return .other
  | .word "super" =>
    advance
    return .other
  | .word name =>
    if reservedWords.contains name then failHere .expressionExpected
    let next ← following
    if name == "async" && next.kind == .word "function" && !next.newlineBefore then
      advance
      function g
      return .other
    advance
    return if constantWords.contains name then .other else .identifier
  | .string _ | .number | .privateName =>
    advance
    return .other
  | .punctuator "(" => parenthesized g
  | .punctuator "[" =>
    arrayLiteral g
    return .other
  | .punctuator "\x7b" =>
    objectLiteral g
    return .other
  | .punctuator "`" => g (.template false)
  | .punctuator "/" | .punctuator "/=" =>
    regExp
    return .other
  | .punctuator "@" =>
    decorators g
    classRest g
    return .other
  | .punctuator "<" =>
    if (← read).dialect.hasElements then g .element
    else failHere .expressionExpected
  | _ => failHere .expressionExpected

/-- Type arguments in an expression are such only if what follows cannot be an operand. -/
def typeArgumentsOfCall : Reader Bool := do
  let result ← attempt do
    typeArguments g
    let t ← current
    match t.kind with
    | .punctuator p =>
      unless ["(", "`", ")", "]", ":", ";", ",", ".", "?.", "==", "===", "!=", "!==", "&&", "||",
          "??", "^", "&", "|", "\x7d", "="].contains p do
        failHere .expressionExpected
    | .endOfSource => return
    | _ => unless t.newlineBefore do failHere .expressionExpected
  return result.isSome

/-- What can follow an operand: members, calls, tags. -/
def operandTail : Reader Bool := do
  let t ← current
  match t.kind with
  | .punctuator "." =>
    advance
    advance
    return true
  | .punctuator "?." =>
    advance
    if ← atMark "[" then return true
    if ← atMark "(" then return true
    if ← atMark "`" then return true
    if ← atMark "<" then typeArguments g else advance
    return true
  | .punctuator "[" =>
    advance
    inBrackets g.expression
    expect "]"
    return true
  | .punctuator "(" =>
    arguments g
    return true
  | .punctuator "`" =>
    discard <| g (.template true)
    return true
  | .punctuator "!" =>
    if (← typeScript) && !t.newlineBefore then
      advance
      return true
    else return false
  | .punctuator "<" | .punctuator "<<" =>
    if ← typeScript then typeArgumentsOfCall g else return false
  | _ => return false

/-- An operand with its members and calls. -/
def readOperand : Reader Shape := do
  let shape ← primary g
  if shape = .arrow then return .arrow
  let before := (← get).place.offset
  loop (operandTail g)
  let t ← current
  if (← atMark "++") || (← atMark "--") then
    unless t.newlineBefore do advance
  return if (← get).place.offset = before then shape else .other

/-- A type assertion. When no type and bracket follow, what follows is read as an expression,
so that its own fault is reported. -/
def typeAssertion : Reader Shape := do
  let asserted ← attempt do
    expectAngle '<'
    unless ← eatWord "const" do g.typeExpr
    expectAngle '>'
  if asserted.isNone then
    advance
    g.assignment
    failHere (.expected ">" (← current).text)
  discard <| g .unary
  return .other

def leadingWords : List String := ["typeof", "void", "await"]

def leadingMarks : List String := ["!", "~", "+", "-", "++", "--"]

/-- An operand with the operators before it. -/
def readUnary : Reader Shape := do
  let t ← current
  match t.kind with
  | .word "delete" =>
    advance
    let start := (← current).start
    let shape ← g .unary
    if shape = .identifier then recover .deleteOfIdentifier (start.spanTo (← get).place)
    return .other
  | .word name =>
    if leadingWords.contains name then
      advance
      discard <| g .unary
      return .other
    else g .operand
  | .punctuator p =>
    if leadingMarks.contains p then
      advance
      discard <| g .unary
      return .other
    else if p == "<" && (← typeScript) && !(← read).dialect.hasElements then typeAssertion g
    else g .operand
  | _ => g .operand

/-! ### Operators -/

/-- A binary operator and its right operand, or the type after `as` or `satisfies`. -/
def binaryStep : Reader Bool := do
  let t ← current
  match t.kind with
  | .punctuator p =>
    if binaryOperators.contains p then
      advance
      discard <| g .unary
      return true
    else return false
  | .word "instanceof" =>
    advance
    discard <| g .unary
    return true
  | .word "in" =>
    if (← read).allowIn then
      advance
      discard <| g .unary
      return true
    else return false
  | .word name =>
    if (name == "as" || name == "satisfies") && (← typeScript) && !t.newlineBefore then
      advance
      unless ← eatWord "const" do g.typeExpr
      return true
    else return false
  | _ => return false

/-- Whether a question mark only says that a parameter is optional. -/
def marksOptional : Reader Bool := do
  if ← typeScript then followedBy [":", ",", ")", "="] else return false

/-- Everything from a binary operator to an assignment, after the first operand. -/
def operators : Reader Unit := do
  loop (binaryStep g)
  if (← atMark "?") && !(← marksOptional) then
    advance
    inConsequent g.assignment
    expect ":"
    g.assignment
  else
    match (← current).kind with
    | .punctuator p =>
      if assignmentOperators.contains p then
        advance
        g.assignment
    | _ => return

/-- The operand of `yield`, which may be missing. -/
def yieldOperand : Reader Unit := do
  let t ← current
  if t.newlineBefore then return
  match t.kind with
  | .punctuator p =>
    if [")", "]", "\x7d", ",", ";", ":", "?"].contains p then return
  | .word "in" | .word "of" | .endOfSource => return
  | _ => pure ()
  discard <| eat "*"
  g.assignment

/-- An arrow function that begins with `async`, a lone parameter or type parameters. -/
def arrowByStart : Reader Bool := do
  let t ← current
  match t.kind with
  | .word name =>
    let next ← following
    if next.kind == .punctuator "=>" && !next.newlineBefore && !reservedWords.contains name then
      advance
      arrowBody g
      return true
    if name == "async" && !next.newlineBefore then
      match next.kind with
      | .word _ =>
        if next.kind == .word "function" then return false
        let result ← attempt do
          advance
          advance
          unless ← atArrow do failHere .expressionExpected
        if result.isSome then arrowBody g
        return result.isSome
      | .punctuator "(" | .punctuator "<" =>
        let result ← attempt do
          advance
          optionalTypeParameters g
          arrowFunction g
        return result.isSome
      | _ => return false
    return false
  | .punctuator "<" =>
    if ← typeScript then
      let result ← attempt do
        let certain ← typeParameters g
        unless certain || !(← read).dialect.hasElements do failHere .expressionExpected
        arrowFunction g
      return result.isSome
    else return false
  | _ => return false

def readAssignment : Reader Shape := do
  if ← atWord "yield" then
    advance
    yieldOperand g
    return .other
  if ← arrowByStart g then return .arrow
  let shape ← g .unary
  if shape = .arrow then return .arrow
  let before := (← get).place.offset
  operators g
  return if (← get).place.offset = before then shape else .other

/-- Expressions separated by commas. -/
def readExpression : Reader Shape := do
  let shape ← g .assignment
  if ← atMark "," then
    loop do
      if ← eat "," then
        g.assignment
        return true
      else return false
    return .other
  return shape

end CosmeticLint.Script
