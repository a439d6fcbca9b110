import CosmeticLint.CommandLine.Reading

/-! What a command leaves behind. -/

namespace CosmeticLint.CommandLine

structure Answer where
  exitCode : Nat
  /-- What is printed as the result. -/
  output : String
  /-- What is said besides, a line each. -/
  remarks : List String
  deriving Repr, DecidableEq, Inhabited

/-- What a command is called and which release it belongs to. -/
structure Title where
  name : String
  version : String
  about : String
  deriving Repr, DecidableEq, Inhabited

def Spec.usage {σ : Type} (s : Spec σ) : String :=
  match s.action with
  | .flag _ => "      --" ++ s.name ++ "\n"
  | _ => "      --" ++ s.name ++ " <VALUE>\n"

def helpText {σ : Type} (title : Title) (specs : List (Spec σ)) : String :=
  title.about ++ "\n\nUsage: " ++ title.name ++ " [OPTIONS]\n\nOptions:\n" ++
    String.join (specs.map Spec.usage) ++ "  -h, --help\n  -V, --version\n"

def Stop.remark : Stop → String
  | help | version => ""
  | unknownArgument => "error: unexpected argument"
  | invalidValue => "error: a value is missing or not allowed"
  | repeatedArgument => "error: an argument cannot be used multiple times"
  | unexpectedValue => "error: unexpected value for a flag"

/-- The answer to a command line that makes no choices. -/
def Stop.answer {σ : Type} (title : Title) (specs : List (Spec σ)) (s : Stop) : Answer :=
  match s with
  | help => ⟨s.exitCode, helpText title specs, []⟩
  | version => ⟨s.exitCode, title.name ++ " " ++ title.version ++ "\n", []⟩
  | _ => ⟨s.exitCode, "", [s.remark]⟩

end CosmeticLint.CommandLine
