import CosmeticLint.Markup.Reference
import CosmeticLint.Script.Cause
import CosmeticLint.Text.Cursor

/-! The values of string and template literals. A literal spells a sequence of UTF-16 units;
two escapes that spell a surrogate pair make one character, and a value with a surrogate
left alone is no text. -/

namespace CosmeticLint.Script

def isLineEnd (c : Char) : Bool :=
  c == '\n' || c == '\r' || c == '\u2028' || c == '\u2029'

/-- Code points, surrogates among them, as text; `none` if a surrogate stands alone. -/
def textOfCodes : List Nat → Option (List Char)
  | [] => some []
  | [n] => if n.isValidChar then some [Char.ofNat n] else none
  | n :: m :: rest =>
    if n.isValidChar then (textOfCodes (m :: rest)).map (Char.ofNat n :: ·)
    else if 0xd800 ≤ n && n < 0xdc00 && 0xdc00 ≤ m && m < 0xe000 then
      (textOfCodes rest).map (Char.ofNat (0x10000 + (n - 0xd800) * 0x400 + (m - 0xdc00)) :: ·)
    else none

/-- What an escape stands for, and how many characters after the backslash it takes. -/
structure Escape where
  codes : List Nat
  length : Nat
  legacyOctal : Bool := false

/-- The hexadecimal digits at the head of a text, at most `limit` of them. -/
def hexDigits (limit : Nat) (text : List Char) : List Char :=
  (text.take limit).takeWhile fun c => (Markup.Reference.digit? 16 c).isSome

def hexValue (digits : List Char) : Nat :=
  digits.foldl (fun n c => n * 16 + (Markup.Reference.digit? 16 c).getD 0) 0

/-- An escape of exactly `count` hexadecimal digits after its letter. The error holds the
number of characters up to where the digits end. -/
def Escape.fixed (count : Nat) (text : List Char) : Except (Cause × Nat) Escape :=
  let digits := hexDigits count text
  if digits.length = count then .ok ⟨[hexValue digits], 1 + count, false⟩
  else .error (.badEscape (toString count), 1 + digits.length)

/-- The value of an octal escape of one to three digits, at most 255. -/
def Escape.octal (text : List Char) : Escape :=
  let digits := (text.take 3).takeWhile fun c => (Markup.Reference.digit? 8 c).isSome
  let value := fun (ds : List Char) => ds.foldl (fun n c => n * 8 + (c.toNat - '0'.toNat)) 0
  let digits := if value digits < 256 then digits else digits.take 2
  let plainNul := digits = ['0'] && !((text.drop 1).head?.any fun c => c == '8' || c == '9')
  ⟨[value digits], digits.length, !plainNul⟩

/-- Reads the escape after a backslash. A line end, CRLF as one, stands for nothing. -/
def Escape.read : List Char → Except (Cause × Nat) Escape
  | [] => .ok ⟨[], 0, false⟩
  | 'b' :: _ => .ok ⟨[0x08], 1, false⟩
  | 'f' :: _ => .ok ⟨[0x0c], 1, false⟩
  | 'n' :: _ => .ok ⟨[0x0a], 1, false⟩
  | 'r' :: _ => .ok ⟨[0x0d], 1, false⟩
  | 't' :: _ => .ok ⟨[0x09], 1, false⟩
  | 'v' :: _ => .ok ⟨[0x0b], 1, false⟩
  | '\r' :: '\n' :: _ => .ok ⟨[], 2, false⟩
  | 'x' :: rest => Escape.fixed 2 rest
  | 'u' :: '{' :: rest =>
    let digits := hexDigits rest.length rest
    let after := (rest.drop digits.length).head?
    if digits.isEmpty || after ≠ some '}' || 0x10ffff < hexValue digits then
      .error (.badEscape "1-6", 2 + digits.length)
    else .ok ⟨[hexValue digits], 3 + digits.length, false⟩
  | 'u' :: rest => Escape.fixed 4 rest
  | c :: rest =>
    if isLineEnd c then .ok ⟨[], 1, false⟩
    else if (Markup.Reference.digit? 8 c).isSome then .ok (Escape.octal (c :: rest))
    else .ok ⟨[c.toNat], 1, false⟩

/-- The character meant by the text between `&` and `;` in an element's attribute. Numbers
have digits only, and only a small `x` marks hexadecimal ones. -/
def referenceMeaning? (body : List Char) : Option Char :=
  let number (base : Nat) (digits : List Char) : Option Char :=
    if digits.isEmpty || digits.any (fun c => (Markup.Reference.digit? base c).isNone) then none
    else (Markup.Reference.digits? base 0 digits).bind fun n =>
      if n.isValidChar then some (Char.ofNat n) else none
  match body with
  | '#' :: 'x' :: digits => number 16 digits
  | '#' :: digits => number 10 digits
  | name => Markup.Reference.named? name

/-- A character reference in an element's attribute takes at most ten characters after its
`&`, the `;` among them. -/
def readReference? (afterAmp : List Char) : Option (Char × Nat) :=
  let body := (afterAmp.take 10).takeWhile (· ≠ ';')
  if body.length < 10 && afterAmp[body.length]? = some ';' then
    (referenceMeaning? body).map fun c => (c, body.length + 1)
  else none

end CosmeticLint.Script
