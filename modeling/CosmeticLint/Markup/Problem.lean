import CosmeticLint.Text.Span

/-! What can be wrong with a component's markup. Reading never stops at a problem. -/

namespace CosmeticLint.Markup

inductive Problem.Kind
  | unclosedTag (name : String)
  | mismatchedClosingTag (expected found : String)
  | unterminatedComment
  | invalidAttribute (reason : String)
  deriving Repr, DecidableEq, Inhabited

def Problem.Kind.message : Problem.Kind → String
  | unclosedTag name => "unclosed tag: <" ++ name ++ ">"
  | mismatchedClosingTag expected found =>
    "mismatched closing tag: expected </" ++ expected ++ ">, found </" ++ found ++ ">"
  | unterminatedComment => "unterminated comment"
  | invalidAttribute reason => "invalid attribute: " ++ reason

/-- A problem and the text that it is about. -/
structure Problem where
  kind : Problem.Kind
  span : Span
  deriving Repr, DecidableEq, Inhabited

end CosmeticLint.Markup
