import CosmeticLint.CommandLine.Answer
import CosmeticLint.Project.Run
import CosmeticLint.Report.RuleList

/-! The linter as a command. -/

namespace CosmeticLint.Project

open CommandLine Storage

def title : Title where
  name := "adblock-lint"
  version := "0.3.1"
  about := "Lints a project for CSS ids and classes that ad blockers hide"

/-- A run that fails prints nothing; one that finds something to complain about prints it and
has the same exit code. -/
def answerOf : Except RunFault Outcome × List String → Answer
  | (.error fault, log) => ⟨1, "", log ++ [fault.message]⟩
  | (.ok outcome, log) => ⟨if outcome.summary.failed then 1 else 0, outcome.output, log⟩

def command {m : Type → Type} [Monad m] (files : Files m) (directory : String)
    (arguments : List String) : m Answer := do
  match Options.read arguments with
  | .error stop => return stop.answer title Options.specs
  | .ok o =>
    if o.listRules then return ⟨0, Report.ruleList (Lint.Rule.all ⟨[], []⟩), []⟩
    else return answerOf (← run files directory o)

end CosmeticLint.Project
