import CosmeticLint.Text.Span

/-! What is read from a script: its literals, and what is wrong with it. A fault either ends
the reading or, when the script can still be understood, is recorded beside the literals. -/

namespace CosmeticLint.Script

/-- A string literal, or a static part of a template literal. -/
inductive Category
  | string
  | quasi
  deriving Repr, DecidableEq, Inhabited

/-- A literal with its decoded value. The span of a string takes in its quotes; the span of a
template part is the text between its delimiters. -/
structure Literal where
  category : Category
  value : String
  span : Span
  deriving Repr, DecidableEq, Inhabited

/-- The literal in a text that starts at an offset. -/
def Literal.shift (l : Literal) (distance : Nat) : Literal :=
  { l with span := l.span.shift distance }

/-- What is wrong with a script, in the words of its parser, and where. -/
structure Fault where
  message : String
  span : Span
  deriving Repr, DecidableEq, Inhabited

/-- A script that was understood: its literals in source order, and its recovered faults in
the order in which they were met. -/
structure Reading where
  literals : List Literal
  recovered : List Fault
  deriving Repr, DecidableEq, Inhabited

end CosmeticLint.Script
