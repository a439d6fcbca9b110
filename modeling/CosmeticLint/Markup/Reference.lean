/-! Character references. A reference runs from `&` to the next `;` and names its
character by one of six names or by number. What is not a valid reference stands for
itself, and what a reference yields is not looked at again. -/

namespace CosmeticLint.Markup.Reference

/-- The characters that have a name. -/
def named? (name : List Char) : Option Char :=
  match String.ofList name with
  | "amp" => some '&'
  | "lt" => some '<'
  | "gt" => some '>'
  | "quot" => some '"'
  | "apos" => some '\''
  | "nbsp" => some '\u00a0'
  | _ => none

/-- The value of one digit, for bases up to sixteen. -/
def digit? (base : Nat) (c : Char) : Option Nat :=
  let value :=
    if c.isDigit then c.toNat - '0'.toNat
    else if 'a' ≤ c ∧ c ≤ 'f' then c.toNat - 'a'.toNat + 10
    else if 'A' ≤ c ∧ c ≤ 'F' then c.toNat - 'A'.toNat + 10
    else base
  if value < base then some value else none

/-- The value of a run of digits that continues a number with value `value`. -/
def digits? (base : Nat) (value : Nat) : List Char → Option Nat
  | [] => some value
  | c :: cs => (digit? base c).bind fun d => digits? base (value * base + d) cs

/-- A number of at least one digit that fits 32 bits; one plus sign may precede it. -/
def number? (base : Nat) (text : List Char) : Option Nat :=
  let unsigned := if text.head? = some '+' then text.tail else text
  if unsigned.isEmpty then none
  else (digits? base 0 unsigned).filter (· < Nat.pow 2 32)

/-- The character with a code point; surrogates are not characters, and NUL is not allowed. -/
def scalar? (n : Nat) : Option Char :=
  if n ≠ 0 ∧ n.isValidChar then some (Char.ofNat n) else none

/-- The character meant by the text between `&` and `;`. -/
def meaning? : List Char → Option Char
  | '#' :: 'x' :: digits => (number? 16 digits).bind scalar?
  | '#' :: 'X' :: digits => (number? 16 digits).bind scalar?
  | '#' :: digits => (number? 10 digits).bind scalar?
  | name => named? name

/-- The reference at the head of the text after `&`: its character, and how many
characters it takes up to and including the `;`. -/
def read? (afterAmp : List Char) : Option (Char × Nat) :=
  let body := afterAmp.takeWhile (· ≠ ';')
  if body.length < afterAmp.length then (meaning? body).map fun c => (c, body.length + 1)
  else none

def decodeChars : List Char → List Char
  | [] => []
  | c :: rest =>
    if c = '&' then
      match read? rest with
      | some (d, n) => d :: decodeChars (rest.drop n)
      | none => c :: decodeChars rest
    else c :: decodeChars rest
termination_by text => text.length
decreasing_by all_goals (simp only [List.length_cons, List.length_drop]; omega)

/-- The text with every valid reference replaced by its character. -/
def decode (text : String) : String := String.ofList (decodeChars text.toList)

/-- Whether a text can hold a reference at all; without an `&` it is its own decoding. -/
def mayOccur (text : String) : Bool := text.toList.contains '&'

end CosmeticLint.Markup.Reference
