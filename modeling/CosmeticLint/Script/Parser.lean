import CosmeticLint.Script.Dialect
import CosmeticLint.Script.Literal

/-! From a parsed script to its literals. How scripts are parsed is a parameter. A parser numbers
the bytes of a text from a base of its own, and may meet literals whose value is no text; what is
read from the script counts from the start of the text and leaves those out. -/

namespace CosmeticLint.Script

/-- A string or a static part of a template as the parser meets it. A value with half of a
surrogate pair, or with an escape that has no meaning, is no text. -/
structure Node where
  category : Category
  value : Option String
  span : Span
  deriving Repr, DecidableEq, Inhabited

/-- A parsed script: the strings and template parts of its tree in the order of a walk through it,
and the faults that did not end the parsing. -/
structure Tree where
  nodes : List Node
  recovered : List Fault
  deriving Repr, DecidableEq, Inhabited

structure Parser where
  /-- The number of a text's first byte. -/
  base : Nat
  parse : String → Dialect → Except Fault Tree

/-- A span of the parser's numbering as one of the text. -/
def relativeSpan (base : Nat) (s : Span) : Span := ⟨s.start - base, s.stop - base⟩

def Fault.relative (base : Nat) (f : Fault) : Fault := { f with span := relativeSpan base f.span }

/-- The literal that a node is, if its value is text. -/
def Node.literal? (base : Nat) (n : Node) : Option Literal :=
  n.value.map fun value => ⟨n.category, value, relativeSpan base n.span⟩

/-- The literals of a script in source order, or the fault that makes it unreadable. -/
def Parser.collect (p : Parser) (text : String) (dialect : Dialect) : Except Fault Reading :=
  match p.parse text dialect with
  | .ok t => .ok ⟨t.nodes.filterMap (Node.literal? p.base), t.recovered.map (Fault.relative p.base)⟩
  | .error f => .error (f.relative p.base)

end CosmeticLint.Script
