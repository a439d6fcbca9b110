import CosmeticLint.CommandLine.Reading
import CosmeticLint.Lint.Diagnostic
import CosmeticLint.Report.Format

/-! What the command line of the linter can ask for. -/

namespace CosmeticLint.Project

open Lint CommandLine

/-- The least severity that is reported. -/
inductive Threshold
  | error
  | warning
  deriving Repr, DecidableEq, Inhabited

namespace Threshold

def ofName? : String → Option Threshold
  | "error" => some error
  | "warning" => some warning
  | _ => none

def admits : Threshold → Severity → Bool
  | error, .warning => false
  | _, _ => true

end Threshold

structure Options where
  workspace : String
  format : Report.Format
  threshold : Threshold
  failOnWarnings : Bool
  /-- Patterns of paths to leave out. -/
  ignore : List String
  /-- A file of forbidden names to use in place of the bundled ones. -/
  selectors : Option String
  noTemplateParser : Bool
  listRules : Bool
  deriving Repr, DecidableEq, Inhabited

namespace Options

def default : Options where
  workspace := "."
  format := .human
  threshold := .warning
  failOnWarnings := false
  ignore := []
  selectors := none
  noTemplateParser := false
  listRules := false

def specs : List (Spec Options) :=
  [⟨"workspace", .single fun v o => some { o with workspace := v }⟩,
    ⟨"output", .single fun v o => (Report.Format.ofName? v).map ({ o with format := · })⟩,
    ⟨"threshold", .single fun v o => (Threshold.ofName? v).map ({ o with threshold := · })⟩,
    ⟨"fail-on-warnings", .flag ({ · with failOnWarnings := true })⟩,
    ⟨"ignore", .repeatable fun v o => some { o with ignore := o.ignore ++ [v] }⟩,
    ⟨"selectors", .single fun v o => some { o with selectors := some v }⟩,
    ⟨"no-template-parser", .flag ({ · with noTemplateParser := true })⟩,
    ⟨"list-rules", .flag ({ · with listRules := true })⟩]

def read (arguments : List String) : Except Stop Options :=
  CommandLine.read specs default arguments

end Options

end CosmeticLint.Project
