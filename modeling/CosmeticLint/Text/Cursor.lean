import CosmeticLint.Text.Span

/-! A place in a text: the bytes already behind it and the characters still ahead.
Every reader moves by a number of characters, so offsets are only ever added up
here. -/

namespace CosmeticLint

structure Cursor where
  offset : Nat
  rest : List Char
  deriving Repr, DecidableEq, Inhabited

namespace Cursor

def ofText (text : String) : Cursor := ⟨0, text.toList⟩

/-- The place at a byte offset, if it is a character boundary of the text. -/
def at? (text : String) (offset : Nat) : Option Cursor :=
  (splitAtByte? text.toList offset).map fun (_, after) => ⟨offset, after⟩

/-- Moves over `n` characters, or to the end if fewer are left. -/
def skip (c : Cursor) (n : Nat) : Cursor := ⟨c.offset + byteLength (c.rest.take n), c.rest.drop n⟩

/-- Moves over the characters that satisfy `p`. -/
def skipWhile (c : Cursor) (p : Char → Bool) : Cursor := c.skip (c.rest.takeWhile p).length

/-- Moves just past the first `x`, or to the end if there is none. -/
def skipPast (c : Cursor) (x : Char) : Cursor := c.skip ((c.rest.takeWhile (· ≠ x)).length + 1)

def spanTo (c d : Cursor) : Span := ⟨c.offset, d.offset⟩

/-- The next `n` characters. -/
def peek (c : Cursor) (n : Nat) : String := String.ofList (c.rest.take n)

theorem length_skip_le (c : Cursor) (n : Nat) : (c.skip n).rest.length ≤ c.rest.length := by
  simp [skip]

theorem length_skip_lt {c : Cursor} {n : Nat} (hn : 0 < n) (hc : c.rest ≠ []) :
    (c.skip n).rest.length < c.rest.length := by
  have := List.length_pos_iff.2 hc
  simp [skip]
  omega

theorem length_skipWhile_le (c : Cursor) (p : Char → Bool) :
    (c.skipWhile p).rest.length ≤ c.rest.length := c.length_skip_le _

theorem length_skipPast_le (c : Cursor) (x : Char) :
    (c.skipPast x).rest.length ≤ c.rest.length := c.length_skip_le _

theorem length_skipPast_lt {c : Cursor} {x : Char} (hc : c.rest ≠ []) :
    (c.skipPast x).rest.length < c.rest.length := length_skip_lt (by omega) hc

end Cursor

/-- How many characters precede the first place whose remaining text satisfies `p`. -/
def searchFor (p : List Char → Bool) : List Char → Option Nat
  | [] => if p [] then some 0 else none
  | c :: cs => if p (c :: cs) then some 0 else (searchFor p cs).map (· + 1)

/-- Equality up to the case of ASCII letters. -/
def sameIgnoringCase (a b : List Char) : Bool := a.map Char.toLower == b.map Char.toLower

/-- Whether `text` begins with `word`, up to the case of ASCII letters. -/
def beginsIgnoringCase : (word text : List Char) → Bool
  | [], _ => true
  | _ :: _, [] => false
  | a :: word, b :: text => a.toLower == b.toLower && beginsIgnoringCase word text

end CosmeticLint
