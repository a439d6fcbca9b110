import CosmeticLint.Lint.Diagnostic
import CosmeticLint.Lint.FileKind
import CosmeticLint.Markup.Document

/-! Rules. For each file a rule is asked which kinds of nodes it wants to see, and is then shown
every node of these kinds. It is given the context of the file each time and hands it back with
what it has to report. -/

namespace CosmeticLint.Lint

open Markup

/-- What can be looked into. -/
structure Capabilities where
  templateBody : Bool
  deriving Repr, DecidableEq, Inhabited

def Capabilities.full : Capabilities := ⟨true⟩

def Capabilities.scriptOnly : Capabilities := ⟨false⟩

/-! ### Registration -/

/-- The kinds of nodes that a rule can ask for. -/
inductive NodeCategory
  | stringLiteral
  | templateQuasi
  | templateAttribute
  deriving Repr, DecidableEq, Inhabited

/-- What a rule asked for. -/
structure Registration where
  categories : List NodeCategory
  deriving Repr, DecidableEq, Inhabited

def Registration.contains (r : Registration) (category : NodeCategory) : Bool :=
  r.categories.contains category

/-! ### Context -/

/-- The file under check, and the diagnostics reported so far. -/
structure RuleContext where
  filename : String
  fileKind : FileKind
  can : Capabilities
  diagnostics : List Diagnostic
  deriving Repr, DecidableEq, Inhabited

namespace RuleContext

def report (ctx : RuleContext) (d : Diagnostic) : RuleContext :=
  { ctx with diagnostics := ctx.diagnostics ++ [d] }

def reportAll (ctx : RuleContext) (ds : List Diagnostic) : RuleContext := ds.foldl report ctx

end RuleContext

/-! ### Rules -/

inductive Rule.Kind
  | problem
  | suggestion
  deriving Repr, DecidableEq, Inhabited

def Rule.Kind.label : Rule.Kind → String
  | problem => "problem"
  | suggestion => "suggestion"

structure Rule.Description where
  name : String
  kind : Rule.Kind
  description : String
  category : String
  recommended : Bool
  codes : List Code
  deriving Repr, DecidableEq, Inhabited

structure Rule where
  about : Rule.Description
  register : RuleContext → Registration × RuleContext
  /-- Called with the value of a string and its place in the file. -/
  stringLiteral : String → Span → RuleContext → RuleContext
  /-- Called with the value of a template part and its place in the file. -/
  templateQuasi : String → Span → RuleContext → RuleContext
  /-- Called with the name of an element and one of its attributes. -/
  templateAttribute : String → Attribute → RuleContext → RuleContext

end CosmeticLint.Lint
