/-! Cutting a text into parts. -/

namespace CosmeticLint

/-- The parts between the occurrences of `x`; a text without `x` is its only part. -/
def splitAtChar (x : Char) : List Char → List (List Char)
  | [] => [[]]
  | c :: cs => if c = x then [] :: splitAtChar x cs else (splitAtChar x cs).modifyHead (c :: ·)

/-- A line without the carriage return that may end it. -/
def dropCarriageReturn (line : List Char) : List Char :=
  if line.getLast? = some '\r' then line.dropLast else line

/-- The lines of a text as shown to people: a carriage return before the line feed belongs to
the line's end, and a final line feed starts no further line. -/
def shownLines (text : List Char) : List (List Char) :=
  let parts := splitAtChar '\n' text
  let last := parts.getLastD []
  parts.dropLast.map dropCarriageReturn ++ if last.isEmpty then [] else [last]

end CosmeticLint
