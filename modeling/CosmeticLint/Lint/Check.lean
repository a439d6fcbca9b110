import CosmeticLint.Lint.HiddenNames
import CosmeticLint.Markup.Blocks
import CosmeticLint.Script.Collect

/-! Checking one file. Its nodes are shown to the rules that asked for them; the diagnostics come
in the order of their places. How a script's literals are found is a parameter. -/

namespace CosmeticLint.Lint

open FilterList Markup

/-- A way to find the literals of a script. -/
abbrev ScriptReader := String → Script.Dialect → Except Script.Fault Script.Reading

/-! ### Dispatch -/

/-- Rules, what they asked for, and the context of the file. -/
structure Driver where
  rules : List Rule
  registrations : List Registration
  context : RuleContext

/-- Asks the rules one after the other. -/
def registerAll : List Rule → RuleContext → List Registration × RuleContext
  | [], ctx => ([], ctx)
  | rule :: rules, ctx =>
    let (registration, ctx) := rule.register ctx
    let (registrations, ctx) := registerAll rules ctx
    (registration :: registrations, ctx)

namespace Driver

/-- The rules that asked for a category. -/
def interested (d : Driver) (category : NodeCategory) : List Rule :=
  ((d.rules.zip d.registrations).filter fun (_, r) => r.contains category).map (·.1)

/-- Lets rules, one after the other, report on one node. -/
def visit (rules : List Rule) (call : Rule → RuleContext → RuleContext) (d : Driver) : Driver :=
  { d with context := rules.foldl (fun ctx rule => call rule ctx) d.context }

def literal (d : Driver) (l : Script.Literal) : Driver :=
  match l.category with
  | .string => d.visit (d.interested .stringLiteral) (·.stringLiteral l.value l.span)
  | .quasi => d.visit (d.interested .templateQuasi) (·.templateQuasi l.value l.span)

/-- Script text that starts at an offset of the file. One that cannot be read is reported. -/
def script (read : ScriptReader) (d : Driver) (text : String) (dialect : Script.Dialect)
    (offset : Nat) : Driver :=
  match read text dialect with
  | .ok r => r.literals.foldl (fun d l => d.literal (l.shift offset)) d
  | .error f =>
    let message := Code.parseError.template ++ ": " ++ f.message
    { d with context := d.context.report (.plain .parseError message (f.span.shift offset)) }

/-- The template's own tag first, then its elements in source order. -/
def template (d : Driver) (t : Template) : Driver :=
  let rules := d.interested .templateAttribute
  if rules.isEmpty || !t.isHtml then d
  else
    let root := t.attributes.map fun a => ("template", a)
    let body := t.elements.flatMap fun e => e.attributes.map fun a => (e.name, a)
    ((root ++ body).filter fun (_, a) => !a.isDirective).foldl
      (fun d (element, a) => d.visit rules (·.templateAttribute element a)) d

/-- The scripts of a component, and its template if it can be looked into. -/
def component (read : ScriptReader) (can : Capabilities) (d : Driver) (c : Component) : Driver :=
  let d := c.scripts.foldl (fun d b => d.script read b.content b.dialect b.contentSpan.start) d
  if can.templateBody then c.template?.elim d d.template else d

end Driver

/-! ### Files -/

/-- Puts a diagnostic before the first one that starts no earlier. -/
def insertByStart (d : Diagnostic) : List Diagnostic → List Diagnostic
  | [] => [d]
  | e :: es =>
    if d.span.start ≤ e.span.start then d :: e :: es else e :: insertByStart d es

/-- Diagnostics in the order of their starts; those that start together keep their order. -/
def sortByStart (ds : List Diagnostic) : List Diagnostic := ds.foldr insertByStart []

/-- Applies rules to a file by its name and text; files of no known kind have nothing to report. -/
def applyRules (read : ScriptReader) (rules : List Rule) (can : Capabilities)
    (filename source : String) : List Diagnostic :=
  match FileKind.ofPath? filename with
  | none => []
  | some kind =>
    let (registrations, ctx) := registerAll rules ⟨filename, kind, can, []⟩
    let driver : Driver := ⟨rules, registrations, ctx⟩
    let driver := match kind with
      | .script dialect => driver.script read source dialect 0
      | .component => driver.component read can (Component.ofText source)
    sortByStart driver.context.diagnostics

/-- Checks a file with every rule there is. -/
def checkWith (read : ScriptReader) (forbidden : Artifact) (can : Capabilities)
    (filename source : String) : List Diagnostic :=
  applyRules read (Rule.all forbidden) can filename source

def check (forbidden : Artifact) (can : Capabilities) (filename source : String) :
    List Diagnostic :=
  checkWith Script.collect forbidden can filename source

end CosmeticLint.Lint
