import CosmeticLint.Script.Expression

/-! Statements and declarations, and the patterns that bind names. -/

namespace CosmeticLint.Script

open Reader

variable (g : Grammar)

/-! ### Patterns -/

/-- A property of an object pattern. -/
def bindingProperty : Reader Unit := do
  if ← eat "..." then g.binding
  else
    propertyName g
    if ← eat ":" then g.binding
    initializer g

/-- Elements of an array pattern may be missing. -/
def bindingElements : Reader Unit := do
  expect "["
  inBrackets <| loop do
    if ← atMark "]" then return false
    if ← eat "," then return true
    discard <| eat "..."
    g.binding
    initializer g
    unless ← atMark "]" do expect ","
    return true
  expect "]"

/-- A name, or a pattern of names. -/
def readBinding : Reader Unit := do
  match (← current).kind with
  | .word _ => advance
  | .punctuator "[" => bindingElements g
  | .punctuator "\x7b" =>
    advance
    inBrackets <| commaList "\x7d" (bindingProperty g)
  | _ => failHere (.bindingExpected (← current).text)

/-- The names that a `var`, `let` or `const` declares, from that word on. -/
def declarators : Reader Unit := do
  advance
  loop do
    g.binding
    if ← typeScript then discard <| eat "!"
    typeAfterColon g
    initializer g
    eat ","

/-! ### Loops and branches -/

def condition : Reader Unit := do
  expect "("
  inBrackets g.expression
  expect ")"

def atDeclaration : Reader Bool := return ["var", "let", "const"].contains (← current).text

def forStatement : Reader Unit := do
  expectWord "for"
  discard <| eatWord "await"
  expect "("
  unless ← atMark ";" do
    withoutIn do
      if ← atDeclaration then declarators g else g.expression
  if (← eatWord "of") || (← eatWord "in") then inBrackets g.expression
  else
    expect ";"
    unless ← atMark ";" do inBrackets g.expression
    expect ";"
    unless ← atMark ")" do inBrackets g.expression
  expect ")"
  g.statement

def ifStatement : Reader Unit := do
  expectWord "if"
  condition g
  g.statement
  if ← eatWord "else" then g.statement

def whileStatement : Reader Unit := do
  expectWord "while"
  condition g
  g.statement

def doStatement : Reader Unit := do
  expectWord "do"
  g.statement
  expectWord "while"
  condition g
  discard <| eat ";"

def switchStatement : Reader Unit := do
  expectWord "switch"
  condition g
  expect "\x7b"
  inBrackets <| loop do
    if ← atMark "\x7d" then return false
    if ← eatWord "case" then
      g.expression
      expect ":"
    else if (← atWord "default") && (← followedBy [":"]) then
      advance
      advance
    else g.statement
    return true
  expect "\x7d"

def tryStatement : Reader Unit := do
  expectWord "try"
  block g
  if ← eatWord "catch" then
    if ← eat "(" then
      g.binding
      typeAfterColon g
      expect ")"
    block g
  if ← eatWord "finally" then block g

/-- A `return` outside a function is recorded, and its value read all the same. -/
def returnStatement : Reader Unit := do
  let start := (← current).start
  expectWord "return"
  unless (← newlineBefore) || (← atMark ";") || (← atMark "\x7d") || (← atEnd) do g.expression
  semicolon
  unless (← read).inFunction do recover .returnOutsideFunction (start.spanTo (← get).place)

/-- Modules are strict, and strict scripts have no `with`; it is recorded and read. -/
def withStatement : Reader Unit := do
  recover .withStatement (← current).span
  expectWord "with"
  condition g
  g.statement

/-- `break` or `continue`, perhaps with a label. -/
def jumpStatement : Reader Unit := do
  advance
  if (← atAnyWord) && !(← newlineBefore) then advance
  semicolon

def expressionStatement : Reader Unit := do
  g.expression
  semicolon

/-! ### Imports and exports -/

/-- The attributes after a module's name. -/
def importAttributes : Reader Unit := do
  if (← atWord "with") || ((← atWord "assert") && !(← newlineBefore)) then
    advance
    discard <| g .operand

/-- The name of another module. -/
def moduleName : Reader Unit := do
  unless ← atString do failHere (.unexpected (← current).text)
  advance
  importAttributes g

/-- The names between the braces of an import or an export; each may be renamed. -/
def specifiers : Reader Unit := do
  expect "\x7b"
  commaList "\x7d" do
    loop do
      if ← atMark "," then return false
      if ← atMark "\x7d" then return false
      advance
      return true

/-- The value of an alias: another module, or a path of names. -/
def importAlias : Reader Unit := do
  if (← atWord "require") && (← followedBy ["("]) then
    advance
    arguments g
  else
    advance
    typePath g
  semicolon

def importDeclaration : Reader Unit := do
  expectWord "import"
  if ← atString then
    moduleName g
    semicolon
  else
    let next ← following
    let isType := (← atWord "type") && (← typeScript) && next.kind != .word "from" &&
      next.kind != .punctuator "," && next.kind != .punctuator "="
    if isType then advance
    if ← atAnyWord then
      advance
      if (← typeScript) && (← eat "=") then return ← importAlias g
      discard <| eat ","
    if ← eat "*" then
      expectWord "as"
      advance
    else if ← atMark "\x7b" then specifiers
    expectWord "from"
    moduleName g
    semicolon

/-- The source of re-exported names, which may be missing. -/
def exportSource : Reader Unit := do
  if ← eatWord "from" then moduleName g
  semicolon

def defaultExport : Reader Unit := do
  expectWord "default"
  let next ← following
  match (← current).kind with
  | .word "function" | .word "class" | .punctuator "@" => g.statement
  | .word "async" =>
    if next.kind == .word "function" && !next.newlineBefore then g.statement
    else
      g.assignment
      semicolon
  | .word name =>
    let declares := (name == "abstract" && next.kind == .word "class") ||
      (name == "interface" && (next.kind matches .word _) && !next.newlineBefore)
    if (← typeScript) && declares then g.statement
    else
      g.assignment
      semicolon
  | _ =>
    g.assignment
    semicolon

def exportDeclaration : Reader Unit := do
  expectWord "export"
  if (← typeScript) && (← eat "=") then
    g.expression
    semicolon
  else if (← typeScript) && (← atWord "as") then
    advance
    expectWord "namespace"
    advance
    semicolon
  else
    if (← atWord "type") && (← typeScript) && (← followedBy ["\x7b", "*"]) then advance
    if ← eat "*" then
      if ← eatWord "as" then advance
      exportSource g
    else if ← atMark "\x7b" then
      specifiers
      exportSource g
    else if ← atWord "default" then defaultExport g
    else g.statement

/-! ### Declarations of TypeScript -/

def typeAlias : Reader Unit := do
  advance
  advance
  optionalTypeParameters g
  expect "="
  g.typeExpr
  semicolon

def interface : Reader Unit := do
  advance
  advance
  optionalTypeParameters g
  if ← eatWord "extends" then
    loop do
      g.typeExpr
      eat ","
  typeMembers g

def enumeration : Reader Unit := do
  expectWord "enum"
  advance
  expect "\x7b"
  inBrackets <| commaList "\x7d" do
    propertyName g
    initializer g

/-- A namespace, or the declaration of a module by its name. -/
def namespaceDeclaration : Reader Unit := do
  advance
  loop do
    if ← atMark "\x7b" then return false
    if ← newlineBefore then return false
    if ← eat ";" then return false
    if ← atEnd then return false
    advance
    return true
  if ← atMark "\x7b" then block g

/-- Reads a declaration that only TypeScript has, if the current word begins one. -/
def typeScriptDeclaration : Reader Bool := do
  unless ← typeScript do return false
  let next ← following
  let name := (← current).text
  unless ← atAnyWord do return false
  let named := (next.kind matches .word _) && !next.newlineBefore
  let read (r : Reader Unit) : Reader Bool := do
    r
    return true
  match name with
  | "type" => if named then read (typeAlias g) else return false
  | "interface" => if named then read (interface g) else return false
  | "enum" => read (enumeration g)
  | "const" => if next.kind == .word "enum" then read (do advance; enumeration g) else return false
  | "abstract" =>
    if next.kind == .word "class" then read (do advance; classRest g) else return false
  | "namespace" => if named then read (namespaceDeclaration g) else return false
  | "module" =>
    if named || ((next.kind matches .string _) && !next.newlineBefore) then
      read (namespaceDeclaration g)
    else return false
  | "global" =>
    if next.kind == .punctuator "\x7b" then read (do advance; block g) else return false
  | "declare" => if named then read (do advance; g.statement) else return false
  | _ => return false

/-! ### Statements -/

def wordStatement (name : String) : Reader Unit := do
  let next ← following
  match name with
  | "var" | "let" | "const" =>
    declarators g
    semicolon
  | "function" => function g
  | "class" => classRest g
  | "if" => ifStatement g
  | "for" => forStatement g
  | "while" => whileStatement g
  | "do" => doStatement g
  | "switch" => switchStatement g
  | "try" => tryStatement g
  | "return" => returnStatement g
  | "with" => withStatement g
  | "break" | "continue" => jumpStatement
  | "throw" =>
    advance
    expressionStatement g
  | "debugger" =>
    advance
    semicolon
  | "import" =>
    if next.kind == .punctuator "(" || next.kind == .punctuator "." then expressionStatement g
    else importDeclaration g
  | "export" => exportDeclaration g
  | "async" =>
    if next.kind == .word "function" && !next.newlineBefore then
      advance
      function g
    else expressionStatement g
  | _ =>
    if next.kind == .punctuator ":" && !reservedWords.contains name then
      advance
      advance
      g.statement
    else expressionStatement g

def readStatement : Reader Unit := do
  if ← typeScriptDeclaration g then return
  match (← current).kind with
  | .punctuator "\x7b" => block g
  | .punctuator ";" => advance
  | .punctuator "@" =>
    decorators g
    g.statement
  | .word name => wordStatement g name
  | _ => expressionStatement g

end CosmeticLint.Script
