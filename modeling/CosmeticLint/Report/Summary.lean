/-! The totals of a run. -/

namespace CosmeticLint.Report

structure Summary where
  files : Nat
  errors : Nat
  warnings : Nat
  failOnWarnings : Bool
  deriving Repr, DecidableEq, Inhabited

/-- A count with its noun, which takes an `s` unless there is exactly one. -/
def counted (n : Nat) (noun : String) : String :=
  toString n ++ " " ++ noun ++ if n = 1 then "" else "s"

namespace Summary

def failed (s : Summary) : Bool := 0 < s.errors || (0 < s.warnings && s.failOnWarnings)

def text (s : Summary) : String :=
  "====================================\nadblock-lint found " ++ counted s.errors "error" ++
    " and " ++ counted s.warnings "warning" ++ " in " ++ counted s.files "file"

end Summary

end CosmeticLint.Report
