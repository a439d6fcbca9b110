import CosmeticLint.Text.Span

/-! Lines of a text. Only a line feed ends a line, and columns count bytes. -/

namespace CosmeticLint

/-- A line and a byte column, both counted from zero. -/
structure LineCol where
  line : Nat
  col : Nat
  deriving Repr, DecidableEq, Inhabited

/-- Counted from one, as editors show them. -/
def LineCol.oneBased (p : LineCol) : LineCol := ⟨p.line + 1, p.col + 1⟩

/-- The offsets just after each line feed, the text starting at `offset`. -/
def lineStartsFrom (offset : Nat) : List Char → List Nat
  | [] => []
  | c :: cs =>
    let next := offset + c.utf8Size
    if c = '\n' then next :: lineStartsFrom next cs else lineStartsFrom next cs

/-- Where each line of a text starts, in increasing order, and where the text ends. -/
structure LineIndex where
  starts : List Nat
  length : Nat
  deriving Repr

namespace LineIndex

def ofText (text : String) : LineIndex where
  starts := 0 :: lineStartsFrom 0 text.toList
  length := byteLength text.toList

/-- The position of a byte offset; the end of the text has one, nothing after it does. -/
def lineCol? (ix : LineIndex) (offset : Nat) : Option LineCol :=
  if offset ≤ ix.length then
    let upTo := ix.starts.takeWhile (· ≤ offset)
    some ⟨upTo.length - 1, offset - upTo.getLastD 0⟩
  else none

end LineIndex

end CosmeticLint
