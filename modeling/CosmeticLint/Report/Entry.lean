import CosmeticLint.Json.Pretty
import CosmeticLint.Lint.Diagnostic
import CosmeticLint.Text.Lines

/-! A diagnostic together with the file it was found in. -/

namespace CosmeticLint.Report

open Lint

/-- A place in a file, with line and column counted from one. -/
structure Position where
  line : Nat
  column : Nat
  offset : Nat
  deriving Repr, DecidableEq, Inhabited

/-- The line and column of an offset, counted from zero; an offset past the end is shown at the
start of the text. -/
def placeOf (ix : LineIndex) (offset : Nat) : LineCol := (ix.lineCol? offset).getD ⟨0, 0⟩

def Position.ofOffset (ix : LineIndex) (offset : Nat) : Position :=
  let place := (placeOf ix offset).oneBased
  ⟨place.line, place.col, offset⟩

structure Entry where
  severity : Severity
  path : String
  start : Position
  stop : Position
  message : String
  code : Code
  /-- The name of the rule that was broken. -/
  rule : String
  deriving Repr, DecidableEq, Inhabited

namespace Entry

def ofDiagnostic (rule path : String) (ix : LineIndex) (d : Diagnostic) : Entry where
  severity := d.severity
  path := path
  start := .ofOffset ix d.span.start
  stop := .ofOffset ix d.span.stop
  message := d.message
  code := d.code
  rule := rule

/-- The entries of one file. -/
def ofFile (rule path source : String) (ds : List Diagnostic) : List Entry :=
  ds.map (ofDiagnostic rule path (.ofText source))

end Entry

/-! ### JSON -/

def Position.pretty (p : Position) : Json.Pretty :=
  .object [("line", .nat p.line), ("column", .nat p.column), ("offset", .nat p.offset)]

def Entry.pretty (e : Entry) : Json.Pretty :=
  .object [("type", .text e.severity.label), ("filename", .text e.path),
    ("start", e.start.pretty), ("end", e.stop.pretty), ("message", .text e.message),
    ("code", .text e.code.label), ("rule", .text e.rule)]

def jsonText (entries : List Entry) : String :=
  Json.Pretty.render (.list (entries.map Entry.pretty))

/-! ### One line per entry -/

def machineLabel : Severity → String
  | .warning => "WARNING"
  | .error => "ERROR"

def Entry.machineLine (e : Entry) : String :=
  machineLabel e.severity ++ " " ++ e.path ++ ":" ++ toString e.start.line ++ ":" ++
    toString e.start.column ++ ":" ++ toString e.stop.line ++ ":" ++ toString e.stop.column ++
    " " ++ e.message ++ " (" ++ e.code.label ++ ")\n"

/-! ### For people -/

/-- The place, and under it what was found there. -/
def Entry.headline (e : Entry) : String :=
  e.path ++ ":" ++ toString e.start.line ++ ":" ++ toString e.start.column ++ "\n" ++
    e.severity.label ++ ": " ++ e.message ++ " (" ++ e.rule ++ "/" ++ e.code.label ++ ")\n"

end CosmeticLint.Report
