import CosmeticLint.Script.Statement

/-! The recogniser of scripts. -/

namespace CosmeticLint.Script

open Reader

/-- Reads one construct, given how to read those inside it. -/
def readGoal (g : Grammar) : Goal → Reader Shape
  | .statement => do readStatement g; return .other
  | .expression => readExpression g
  | .assignment => readAssignment g
  | .unary => readUnary g
  | .operand => readOperand g
  | .element => do readElement g; return .other
  | .template tagged => do readTemplate tagged g.expression; return .other
  | .binding => do readBinding g; return .other
  | .typeExpr => do readTypeExpr g; return .other
  | .typeTemplate => do readTypeTemplate g; return .other

/-- Reads constructs nested at most `depth` deep. -/
def grammar : (depth : Nat) → Grammar
  | 0, _ => failHere .tooDeep
  | depth + 1, goal => readGoal (grammar depth) goal

/-- Constructs that start at one place are nested at most this deep in each other. -/
def nestingPerCharacter : Nat := 16

/-- The place where a script begins: after a byte order mark, which no offset counts, and
after a line for the system's loader. -/
def scriptStart (text : String) : Cursor :=
  let chars := match text.toList with
    | '\ufeff' :: rest => rest
    | chars => chars
  let c : Cursor := ⟨0, chars⟩
  if "#!".toList.isPrefixOf chars then c.skipWhile fun x => !isLineEnd x else c

/-- Every statement up to the end of the script. -/
def statements (g : Grammar) : Reader Unit := loop do
  if ← atEnd then return false
  g.statement
  return true

/-- Recognises a script and keeps the literals met on the way. -/
def recognize (text : String) (dialect : Dialect) : Except Fault Tree :=
  let start := scriptStart text
  let depth := nestingPerCharacter * (start.rest.length + 4)
  let context : Context := ⟨dialect, false, true, false⟩
  match statements (grammar depth) context ⟨.read start, start, [], []⟩ with
  | .ok (_, s) => .ok ⟨s.nodes.reverse, s.recovered⟩
  | .error f => .error f

/-- The parser that is used when no other is given. It counts bytes from zero. -/
def recognizer : Parser := ⟨0, recognize⟩

def collect : String → Dialect → Except Fault Reading := recognizer.collect

end CosmeticLint.Script
