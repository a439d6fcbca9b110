import CosmeticLint.Json.Decoder
import CosmeticLint.Lint.FileKind

/-! The settings file of a project. -/

namespace CosmeticLint.Project

structure Settings where
  /-- The extensions of the files to check. -/
  extensions : Option (List String)
  /-- Patterns of paths to leave out. -/
  ignore : List String
  /-- A file of forbidden names, seen from the project's directory. -/
  selectors : Option String
  /-- Whether template bodies are looked into. -/
  templateParser : Option Bool
  deriving Repr, DecidableEq, Inhabited

namespace Settings

/-- Where a project keeps its settings. -/
def fileName : String := "adblock-lint.json"

def default : Settings := ⟨none, [], none, none⟩

def strings : Json.Decoder (List String) := .list (.string "a string")

/-- Any field may be missing. -/
def decoder : Json.Decoder Settings :=
  .record "struct LintConfig"
    [⟨"extensions", fun s => do return { s with extensions := ← .nullable strings }⟩,
      ⟨"ignore", fun s => do return { s with ignore := ← strings }⟩,
      ⟨"selectors", fun s => do
        return { s with selectors := ← .nullable (.string "a UTF-8 path string") }⟩,
      ⟨"templateParser", fun s => do return { s with templateParser := ← .nullable .boolean }⟩]
    default

def ofJson (text : String) : Except Json.Failure Settings := decoder.run text

/-- The extensions without the dots before them; by default every extension that has a kind. -/
def fileExtensions (s : Settings) : List String :=
  match s.extensions with
  | none => Lint.FileKind.extensions
  | some extensions => extensions.map fun e => String.ofList (e.toList.dropWhile (· == '.'))

end Settings

end CosmeticLint.Project
