import CosmeticLint.Script.Parser
import CosmeticLint.Script.Token

/-! Reading a script token by token. The grammar only recognises: no tree is built, and what
remains of a construct is the literals met in it and the little that its surroundings ask
for. A reading may be tried and given up, and then leaves no trace.

Constructs refer to each other through `Goal`: each is written against a way to read any
goal, and `Collect` closes the circle. -/

namespace CosmeticLint.Script

/-- The constructs that contain each other. -/
inductive Goal
  | statement
  | expression
  | assignment
  | unary
  | operand
  | element
  | template (tagged : Bool)
  | binding
  | typeExpr
  | typeTemplate
  deriving Repr, DecidableEq

/-- What the surroundings of an expression need to know of it. -/
inductive Shape
  | identifier
  | arrow
  | other
  deriving Repr, DecidableEq, Inhabited

structure Context where
  dialect : Dialect
  inFunction : Bool := false
  /-- In the head of a loop `in` is not an operator. -/
  allowIn : Bool := true
  /-- Between `?` and `:` a colon after parentheses need not start a result type. -/
  inConsequent : Bool := false

/-- The current token is read ahead; `place` is where the last thing used ended. -/
structure State where
  token : Token
  place : Cursor
  nodes : List Node
  recovered : List Fault

abbrev Reader := ReaderT Context (StateT State (Except Fault))

namespace Reader

def fail {α : Type} (cause : Cause) (span : Span) : Reader α := throw (.of cause span)

def current : Reader Token := return (← get).token

/-- Fails at the current token; a token that is faulty in itself says why. -/
def failHere {α : Type} (cause : Cause) : Reader α := do
  let t ← current
  match t.kind with
  | .faulty f => throw f
  | _ => fail cause t.span

/-- Runs a reading; if it fails, nothing has happened. -/
def attempt {α : Type} (r : Reader α) : Reader (Option α) := fun ctx s =>
  match r ctx s with
  | .ok (a, s') => .ok (some a, s')
  | .error _ => .ok (none, s)

/-- Repeats a step while it returns `true`. As every step that goes on uses a character, the
characters left bound their number. -/
def repeatStep (step : Reader Bool) : Nat → Reader Unit
  | 0 => return
  | n + 1 => do if ← step then repeatStep step n

def loop (step : Reader Bool) : Reader Unit := do
  repeatStep step ((← get).place.rest.length + 2)

/-! ### Moving -/

/-- Moves to a place and reads the token there. -/
def seek (c : Cursor) : Reader Unit := modify fun s => { s with token := .read c, place := c }

def recover (cause : Cause) (span : Span) : Reader Unit :=
  modify fun s => { s with recovered := s.recovered ++ [.of cause span] }

def record (category : Category) (value : Option String) (span : Span) : Reader Unit :=
  modify fun s => { s with nodes := ⟨category, value, span⟩ :: s.nodes }

/-- Uses the current token. -/
def advance : Reader Unit := do
  let t ← current
  match t.kind with
  | .faulty f => throw f
  | _ =>
    modify fun s => { s with recovered := s.recovered ++ t.recovered }
    if let .string value := t.kind then record .string value t.span
    seek t.after

/-- The token after the current one. -/
def following : Reader Token := return .read (← current).after

/-! ### Tests -/

def atMark (p : String) : Reader Bool := return (← current).kind == .punctuator p

def atWord (w : String) : Reader Bool := return (← current).kind == .word w

def atAnyWord : Reader Bool := return (← current).kind matches .word _

def atString : Reader Bool := return (← current).kind matches .string _

def atEnd : Reader Bool := return (← current).kind == .endOfSource

def newlineBefore : Reader Bool := return (← current).newlineBefore

def typeScript : Reader Bool := return (← read).dialect.isTypeScript

def eat (p : String) : Reader Bool := do
  if ← atMark p then
    advance
    return true
  else return false

def eatWord (w : String) : Reader Bool := do
  if ← atWord w then
    advance
    return true
  else return false

def expect (p : String) : Reader Unit := do
  unless ← eat p do failHere (.expected p (← current).text)

def expectWord (w : String) : Reader Unit := do
  unless ← eatWord w do failHere (.expected w (← current).text)

/-- A statement ends with a semicolon, before a closing brace, at the end of a line or with
the script. -/
def semicolon : Reader Unit := do
  if ← eat ";" then return
  if (← atMark "\x7d") || (← atEnd) || (← newlineBefore) then return
  failHere .semicolonExpected

/-- Uses one angle bracket, also when it starts a longer punctuator. -/
def eatAngle (angle : Char) : Reader Bool := do
  let t ← current
  match t.kind with
  | .punctuator _ =>
    if t.start.rest.head? = some angle then
      seek (t.start.skip 1)
      return true
    else return false
  | _ => return false

def expectAngle (angle : Char) : Reader Unit := do
  unless ← eatAngle angle do failHere (.expected (String.singleton angle) (← current).text)

/-- Items separated by commas up to a closing punctuator, which is used too. -/
def commaList (close : String) (item : Reader Unit) : Reader Unit := do
  loop do
    if ← atMark close then return false
    item
    if ← atMark close then return false
    expect ","
    return true
  expect close

/-! ### Contexts -/

def inBrackets {α : Type} (r : Reader α) : Reader α :=
  withReader (fun ctx => { ctx with allowIn := true, inConsequent := false }) r

def inFunctionBody {α : Type} (r : Reader α) : Reader α :=
  withReader (fun ctx => { ctx with inFunction := true, allowIn := true, inConsequent := false }) r

def withoutIn {α : Type} (r : Reader α) : Reader α :=
  withReader (fun ctx => { ctx with allowIn := false }) r

def inConsequent {α : Type} (r : Reader α) : Reader α :=
  withReader (fun ctx => { ctx with allowIn := true, inConsequent := true }) r

end Reader

/-- A way to read any construct. -/
abbrev Grammar := Goal → Reader Shape

namespace Grammar

def statement (g : Grammar) : Reader Unit := discard (g .statement)
def expression (g : Grammar) : Reader Unit := discard (g .expression)
def assignment (g : Grammar) : Reader Unit := discard (g .assignment)
def binding (g : Grammar) : Reader Unit := discard (g .binding)
def typeExpr (g : Grammar) : Reader Unit := discard (g .typeExpr)

end Grammar

end CosmeticLint.Script
