/-! Half-open ranges of byte offsets into a UTF-8 text. A text is taken apart as its
list of characters; the number of bytes of a list is the sum of the sizes of its
characters, so an offset lies on a character boundary exactly when some initial
part of the text has that many bytes. -/

namespace CosmeticLint

/-- The number of bytes of the UTF-8 form. -/
def byteLength : List Char → Nat
  | [] => 0
  | c :: cs => c.utf8Size + byteLength cs

@[simp] theorem byteLength_nil : byteLength [] = 0 := rfl

@[simp] theorem byteLength_cons (c : Char) (cs : List Char) :
    byteLength (c :: cs) = c.utf8Size + byteLength cs := rfl

@[simp] theorem byteLength_append (a b : List Char) :
    byteLength (a ++ b) = byteLength a + byteLength b := by
  induction a with
  | nil => simp
  | cons c cs ih => simp [ih, Nat.add_assoc]

/-- The two parts of a text before and after a byte offset; `none` past the end or
inside a character. -/
def splitAtByte? : List Char → Nat → Option (List Char × List Char)
  | cs, 0 => some ([], cs)
  | [], _ + 1 => none
  | c :: cs, n + 1 =>
    if c.utf8Size ≤ n + 1 then
      (splitAtByte? cs (n + 1 - c.utf8Size)).map fun (before, after) => (c :: before, after)
    else none

/-- A byte range `start ≤ i < stop`. -/
structure Span where
  start : Nat
  stop : Nat
  deriving Repr, DecidableEq, Inhabited

namespace Span

/-- The low 32 bits of both ends. -/
def truncated (start stop : Nat) : Span := ⟨start % Nat.pow 2 32, stop % Nat.pow 2 32⟩

def empty (offset : Nat) : Span := ⟨offset, offset⟩

def shift (s : Span) (distance : Nat) : Span := ⟨s.start + distance, s.stop + distance⟩

/-- The text of the range; `none` when it is reversed, runs past the end or cuts a
character. -/
def slice? (s : Span) (text : List Char) : Option (List Char) :=
  if s.start ≤ s.stop then
    (splitAtByte? text s.start).bind fun (_, after) =>
      (splitAtByte? after (s.stop - s.start)).map fun (inside, _) => inside
  else none

end Span

end CosmeticLint
