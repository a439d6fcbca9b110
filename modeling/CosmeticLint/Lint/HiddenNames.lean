import CosmeticLint.FilterList.Artifact
import CosmeticLint.Lint.Rule

/-! The rule against names that content blockers hide. Every literal of a script and every static
`id` and `class` of a template is compared with the forbidden names. -/

namespace CosmeticLint.Lint

open FilterList Markup

/-! ### Scripts -/

/-- A value may be forbidden both as an id and as a class. -/
def checkCandidate (forbidden : Artifact) (value : String) (span : Span) : List Diagnostic :=
  (if forbidden.isForbiddenId value then [.aboutName .forbiddenId value span] else []) ++
    if forbidden.isForbiddenClass value then [.aboutName .forbiddenClass value span] else []

/-! ### Templates -/

/-- The parts of a value between spaces, with their places in the file. -/
def classTokensFrom (start : Nat) : List (List Char) → List (String × Span)
  | [] => []
  | token :: tokens =>
    let stop := start + byteLength token
    (String.ofList token, ⟨start, stop⟩) :: classTokensFrom (stop + 1) tokens

/-- The classes that a value lists, as written. Two spaces in a row have an empty class
between them. -/
def classTokens (v : AttributeValue) : List (String × Span) :=
  let quoteLength := if v.quote.isSome then 1 else 0
  classTokensFrom (v.span.start + quoteLength) (splitAtChar ' ' v.text.toList)

def checkId (forbidden : Artifact) (v : AttributeValue) : List Diagnostic :=
  if forbidden.isForbiddenId v.decoded then [.aboutName .forbiddenId v.decoded v.span] else []

def checkClassToken (forbidden : Artifact) (token : String × Span) : List Diagnostic :=
  let name := Reference.decode token.1
  if forbidden.isForbiddenClass name then [.aboutName .forbiddenClass name token.2] else []

def checkAttribute (forbidden : Artifact) (a : Attribute) : List Diagnostic :=
  match a.value with
  | none => []
  | some v =>
    if a.name = "id" then checkId forbidden v
    else if a.name = "class" then (classTokens v).flatMap (checkClassToken forbidden)
    else []

/-! ### The rule -/

def templateUnavailable : Diagnostic :=
  .plain .templateParserUnavailable Code.templateParserUnavailable.template (Span.empty 0)

/-- Attributes can be asked for where templates can be looked into; where they cannot, a
component is reported for it. -/
def registerHiddenNames (ctx : RuleContext) : Registration × RuleContext :=
  if ctx.can.templateBody then
    (⟨[.stringLiteral, .templateQuasi, .templateAttribute]⟩, ctx)
  else
    (⟨[.stringLiteral, .templateQuasi]⟩,
      if ctx.fileKind = .component then ctx.report templateUnavailable else ctx)

/-- Names that content blockers hide do not belong in markup or scripts. -/
def Rule.hiddenNames (forbidden : Artifact) : Rule where
  about :=
    { name := "ban-adblock-selectors"
      kind := .problem
      description := "Disallow specific css selectors (only ids and classes right now) " ++
        "that might get blocked by adblockers"
      category := "Best Practices"
      recommended := true
      codes := [.forbiddenId, .forbiddenClass, .templateParserUnavailable] }
  register := registerHiddenNames
  stringLiteral value span ctx := ctx.reportAll (checkCandidate forbidden value span)
  templateQuasi value span ctx := ctx.reportAll (checkCandidate forbidden value span)
  templateAttribute _ a ctx := ctx.reportAll (checkAttribute forbidden a)

def Rule.all (forbidden : Artifact) : List Rule := [.hiddenNames forbidden]

end CosmeticLint.Lint
