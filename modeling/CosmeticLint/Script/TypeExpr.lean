import CosmeticLint.Script.Parameters
import CosmeticLint.Script.Template

/-! The types of TypeScript. They are read only for the literals in them, so the parts of a
union or a path are not told apart by how tightly they bind. -/

namespace CosmeticLint.Script

open Reader

variable (g : Grammar)

/-- Whether the current word is followed by one of the given punctuators. -/
def followedBy (ps : List String) : Reader Bool := do
  match (← following).kind with
  | .punctuator p => return ps.contains p
  | _ => return false

/-- The rest of a qualified name, and its type arguments. -/
def typePath : Reader Unit := do
  loop do
    if ← eat "." then
      advance
      return true
    else return false
  if (← atMark "<") && !(← newlineBefore) then typeArguments g

/-- The type of another module's export. -/
def importedType : Reader Unit := do
  expectWord "import"
  expect "("
  inBrackets do
    g.typeExpr
    if ← eat "," then
      unless ← atMark ")" do
        g.assignment
        discard <| eat ","
  expect ")"
  typePath g

/-- What stands in the brackets that start a member: the parameter of a mapped type, of an
index signature, or an expression. -/
def bracketedMember : Reader Unit := do
  expect "["
  inBrackets do
    if (← atAnyWord) && (← following).kind == .word "in" then
      advance
      advance
      g.typeExpr
      if ← eatWord "as" then g.typeExpr
    else if (← atAnyWord) && (← followedBy [":"]) then
      advance
      advance
      g.typeExpr
    else g.assignment
  expect "]"

def signature : Reader Unit := do
  optionalTypeParameters g
  parameters g
  typeAfterColon g

/-- A member of an object type or an interface. -/
def typeMember : Reader Unit := do
  if (← atMark "+") || (← atMark "-") then
    advance
    expectWord "readonly"
  else loop do
    if ["readonly", "get", "set", "static"].contains (← current).text && (← isModifier) then
      advance
      return true
    else return false
  if (← atWord "new") && (← followedBy ["(", "<"]) then
    advance
    signature g
  else if (← atMark "(") || (← atMark "<") then signature g
  else
    if ← atMark "[" then bracketedMember g else propertyName g
    if (← atMark "+") || (← atMark "-") then advance
    discard <| eat "?"
    if (← atMark "(") || (← atMark "<") then signature g else typeAfterColon g

/-- The members between the braces of an object type. -/
def typeMembers : Reader Unit := do
  expect "\x7b"
  inBrackets <| loop do
    if ← atMark "\x7d" then return false
    if (← eat ";") || (← eat ",") then return true
    typeMember g
    if (← eat ";") || (← eat ",") then return true
    if (← atMark "\x7d") || (← newlineBefore) then return true
    failHere .semicolonExpected
  expect "\x7d"

/-- An element of a tuple type, which may have a label. -/
def tupleElement : Reader Unit := do
  discard <| eat "..."
  if ← atAnyWord then
    if ← followedBy [":"] then
      advance
      advance
    else if ← followedBy ["?"] then
      let labelled ← attempt do
        advance
        advance
        expect ":"
      if labelled.isNone then return ← optionalElement
  optionalElement
where
  optionalElement : Reader Unit := do
    g.typeExpr
    discard <| eat "?"

/-- A name used as a type, or one of the phrases that begin with a word. -/
def namedType : Reader Unit := do
  if ← atWord "import" then importedType g
  else if ← eatWord "typeof" then
    if ← atWord "import" then importedType g
    else
      advance
      typePath g
  else
    let next ← following
    if (← atWord "asserts") && !next.newlineBefore && (next.kind matches .word _) then advance
    advance
    typePath g
    if (← atWord "is") && !(← newlineBefore) then
      advance
      g.typeExpr

def primaryType : Reader Unit := do
  match (← current).kind with
  | .word _ => namedType g
  | .string _ | .number => advance
  | .punctuator "`" => discard <| g .typeTemplate
  | .punctuator "-" =>
    advance
    advance
  | .punctuator "(" =>
    advance
    inBrackets g.typeExpr
    expect ")"
  | .punctuator "[" =>
    advance
    inBrackets <| commaList "]" (tupleElement g)
  | .punctuator "\x7b" => typeMembers g
  | _ => failHere (.unexpected (← current).text)

/-- Whether the current word is an operator on the type that follows. -/
def atTypeOperator : Reader Bool := do
  if ["keyof", "unique", "readonly", "infer"].contains (← current).text then
    match (← following).kind with
    | .word _ | .string _ => return true
    | .punctuator p => return ["(", "[", "\x7b", "`"].contains p
    | _ => return false
  else return false

/-- A type with the operators before it and the brackets after it. -/
def operandType : Reader Unit := do
  loop do
    if ← atTypeOperator then
      advance
      return true
    else return false
  primaryType g
  loop do
    if (← atMark "[") && !(← newlineBefore) then
      advance
      unless ← atMark "]" do inBrackets g.typeExpr
      expect "]"
      return true
    else return false

/-- The rest of a function type after its parameters. -/
def resultType : Reader Unit := do
  expect "=>"
  g.typeExpr

def readTypeExpr : Reader Unit := do
  if (← atWord "abstract") && (← following).kind == .word "new" then advance
  if (← atWord "new") && (← followedBy ["(", "<"]) then
    advance
    optionalTypeParameters g
    parameters g
    resultType g
  else if ← atMark "<" then
    discard <| typeParameters g
    parameters g
    resultType g
  else
    let isFunction ← if ← atMark "(" then
        attempt do
          parameters g
          expect "=>"
      else pure none
    if isFunction.isSome then g.typeExpr
    else
      unless ← eat "|" do discard <| eat "&"
      operandType g
      loop do
        if (← eat "|") || (← eat "&") then
          operandType g
          return true
        else return false
      if (← atWord "extends") && !(← newlineBefore) then
        advance
        g.typeExpr
        if ← eat "?" then
          g.typeExpr
          expect ":"
          g.typeExpr

def readTypeTemplate : Reader Unit := readTemplate true g.typeExpr

end CosmeticLint.Script
