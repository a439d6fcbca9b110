/-! The dialects of script text. -/

namespace CosmeticLint.Script

inductive Dialect
  | javaScript
  | jsx
  | typeScript
  | tsx
  deriving Repr, DecidableEq, Inhabited

namespace Dialect

/-- The dialect named by a `lang` attribute; JavaScript when there is none or it is not known. -/
def ofLang (lang : Option String) : Dialect :=
  match lang.map String.toLower with
  | some "ts" | some "typescript" => typeScript
  | some "tsx" => tsx
  | some "jsx" => jsx
  | _ => javaScript

def isTypeScript : Dialect → Bool
  | typeScript | tsx => true
  | _ => false

/-- Elements in angle brackets are expressions everywhere but in plain TypeScript, where an
angle bracket opens a type assertion. -/
def hasElements : Dialect → Bool
  | typeScript => false
  | _ => true

/-- The usual file extension. -/
def extension : Dialect → String
  | javaScript => "js"
  | jsx => "jsx"
  | typeScript => "ts"
  | tsx => "tsx"

end Dialect

end CosmeticLint.Script
