import CosmeticLint.Lint.Rule

/-! The rules as shown to people. -/

namespace CosmeticLint.Report

open Lint

def ruleText (r : Rule.Description) : String :=
  r.name ++ " (" ++ r.kind.label ++ (if r.recommended then ", recommended" else "") ++ ")\n" ++
    "  " ++ r.description ++ "\n" ++
    "  Category: " ++ r.category ++ "\n" ++
    "  Reports: " ++ String.intercalate ", " (r.codes.map Code.label) ++ "\n"

def ruleList (rules : List Rule) : String := String.join (rules.map (ruleText ·.about))

end CosmeticLint.Report
