import CosmeticLint.Script.Literal

/-! What the recogniser of scripts finds wrong with them. -/

namespace CosmeticLint.Script

inductive Cause
  | bindingExpected (found : String)
  | expressionExpected
  | semicolonExpected
  | expected (what found : String)
  | unexpected (found : String)
  | unterminatedTemplate
  | unterminatedRegExp
  | unterminatedString
  | unterminatedComment
  | badEscape (digits : String)
  | legacyOctal
  | legacyDecimal
  | returnOutsideFunction
  | withStatement
  | deleteOfIdentifier
  | tooDeep
  deriving Repr, DecidableEq, Inhabited

def Cause.message : Cause → String
  | bindingExpected found =>
    "Unexpected token `" ++ found ++ "`. Expected yield, an identifier, [ or \x7b"
  | expressionExpected => "Expression expected"
  | semicolonExpected => "Expected ';', '\x7d' or <eof>"
  | expected what found => "Expected '" ++ what ++ "', got '" ++ found ++ "'"
  | unexpected found => "Unexpected token `" ++ found ++ "`"
  | unterminatedTemplate => "Unterminated template"
  | unterminatedRegExp => "Unterminated regexp literal"
  | unterminatedString => "Unterminated string constant"
  | unterminatedComment => "Unterminated block comment"
  | badEscape digits => "Bad character escape sequence, expected " ++ digits ++ " hex characters"
  | legacyOctal => "Legacy octal escape is not permitted in strict mode"
  | legacyDecimal => "Legacy decimal escape is not permitted in strict mode"
  | returnOutsideFunction => "Return statement is not allowed here"
  | withStatement => "With statement are not allowed in strict mode"
  | deleteOfIdentifier => "'delete' cannot be called on an identifier in strict mode"
  | tooDeep => "Nesting too deep"

def Fault.of (cause : Cause) (span : Span) : Fault := ⟨cause.message, span⟩

end CosmeticLint.Script
