import CosmeticLint.Text.Span

/-! What a check reports. -/

namespace CosmeticLint.Lint

inductive Severity
  | warning
  | error
  deriving Repr, DecidableEq, Inhabited

def Severity.label : Severity → String
  | warning => "Warning"
  | error => "Error"

inductive Code
  | forbiddenId
  | forbiddenClass
  | templateParserUnavailable
  | parseError
  deriving Repr, DecidableEq, Inhabited

namespace Code

def label : Code → String
  | forbiddenId => "forbiddenId"
  | forbiddenClass => "forbiddenClass"
  | templateParserUnavailable => "templateParserUnavailable"
  | parseError => "parseError"

/-- The severity of a code's diagnostics. -/
def severity : Code → Severity
  | templateParserUnavailable => .warning
  | _ => .error

/-- The message of a code about a name; some codes are about none. -/
def message (name : String) : Code → String
  | forbiddenId => "ID '" ++ name ++ "' is forbidden."
  | forbiddenClass => "Class '" ++ name ++ "' is forbidden."
  | templateParserUnavailable =>
    "Use the latest template parser to lint `<template>` blocks; " ++
      "the current host cannot visit template bodies."
  | parseError => "Parsing error"

/-- The message with a mark where the name goes. -/
def template (c : Code) : String := c.message "\x7bname\x7d"

end Code

structure Diagnostic where
  code : Code
  severity : Severity
  message : String
  span : Span
  /-- The forbidden name, for the codes that are about one. -/
  name : Option String
  deriving Repr, DecidableEq, Inhabited

namespace Diagnostic

def isError (d : Diagnostic) : Bool := d.severity = .error

def aboutName (code : Code) (name : String) (span : Span) : Diagnostic :=
  ⟨code, code.severity, code.message name, span, some name⟩

def plain (code : Code) (message : String) (span : Span) : Diagnostic :=
  ⟨code, code.severity, message, span, none⟩

end Diagnostic

end CosmeticLint.Lint
