import CosmeticLint.Script.Dialect
import CosmeticLint.Text.Path

/-! Files that can be checked, told by their extension. -/

namespace CosmeticLint.Lint

inductive FileKind
  | component
  | script (dialect : Script.Dialect)
  deriving Repr, DecidableEq, Inhabited

namespace FileKind

/-- Extensions are compared exactly. -/
def ofExtension? : String → Option FileKind
  | "vue" => some .component
  | "js" | "mjs" | "cjs" => some (.script .javaScript)
  | "jsx" => some (.script .jsx)
  | "ts" | "mts" | "cts" => some (.script .typeScript)
  | "tsx" => some (.script .tsx)
  | _ => none

def ofPath? (path : String) : Option FileKind := (Path.extension? path).bind ofExtension?

/-- Every extension that has a kind. -/
def extensions : List String := ["vue", "js", "jsx", "mjs", "cjs", "ts", "tsx", "mts", "cts"]

end FileKind

end CosmeticLint.Lint
