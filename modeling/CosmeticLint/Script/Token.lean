import CosmeticLint.Script.Escape
import CosmeticLint.Text.Alphanumeric
import CosmeticLint.Text.Blank
import CosmeticLint.Text.Printable

/-! The tokens of a script. A slash is read as a punctuator; only the grammar knows where a
regular expression, a template or an element can stand, and reads those from the place
where the token starts. -/

namespace CosmeticLint.Script

/-! ### Characters -/

def isSpace (c : Char) : Bool :=
  (isWhiteSpace c && !isLineEnd c && c != '\u0085') || c == '\ufeff'

def isWordStart (c : Char) : Bool :=
  c.isAlpha || c == '$' || c == '_' || c == '\\' || (0x80 ≤ c.toNat && isAlphanumeric c)

/-- Combining marks and the two joiners may follow inside a word. -/
def isWordPart (c : Char) : Bool :=
  isWordStart c || c.isDigit || c == '\u200c' || c == '\u200d' || isExtending c

/-- The number of characters of the word at the head of a text; an escaped character may be
spelled in braces. -/
def wordLength : List Char → Nat
  | '\\' :: 'u' :: '{' :: rest =>
    let n := (rest.takeWhile (· ≠ '}')).length
    4 + n + wordLength (rest.drop (n + 1))
  | c :: rest => if isWordPart c then 1 + wordLength rest else 0
  | [] => 0
termination_by text => text.length
decreasing_by all_goals simp <;> omega

/-- Blanks and comments: the number of characters after the first, and whether a line ends
among them. A comment that nothing ends is not skipped. -/
def trivia? : List Char → Option (Nat × Bool)
  | '/' :: '/' :: rest => some (1 + (rest.takeWhile fun c => !isLineEnd c).length, false)
  | '/' :: '*' :: rest =>
    (searchFor "*/".toList.isPrefixOf rest).map fun n => (n + 3, (rest.take n).any isLineEnd)
  | c :: _ =>
    if isLineEnd c then some (0, true)
    else if isSpace c then some (0, false)
    else none
  | [] => none

/-- Skips blanks and comments; tells whether a line ended. -/
def skipTrivia (c : Cursor) : Cursor × Bool :=
  match h : trivia? c.rest with
  | none => (c, false)
  | some (n, newline) =>
    have : (c.skip (n + 1)).rest.length < c.rest.length :=
      Cursor.length_skip_lt (by omega) (by intro he; rw [he] at h; simp [trivia?] at h)
    let more := skipTrivia (c.skip (n + 1))
    (more.1, newline || more.2)
termination_by c.rest.length

/-! ### Text between quotes -/

/-- The inside of a quoted literal. `codes` is what it spells, `octals` are its legacy
escapes, `bad` its first escape without a meaning, `inside` the place where the text ends and
`after` the place behind its delimiter, if it has one. -/
structure Quoted where
  codes : List Nat
  octals : List Fault
  bad : Option Fault
  inside : Cursor
  after : Option Cursor

namespace Quoted

def ended (inside : Cursor) (after : Option Cursor) : Quoted := ⟨[], [], none, inside, after⟩

def cons (codes : List Nat) (q : Quoted) : Quoted := { q with codes := codes ++ q.codes }

/-- Adds the escape whose backslash stands at `c`. -/
def consEscape (c : Cursor) (e : Escape) (q : Quoted) : Quoted :=
  let octal := if e.legacyOctal then [.of .legacyOctal (c.spanTo (c.skip (1 + e.length)))] else []
  { q with codes := e.codes ++ q.codes, octals := octal ++ q.octals }

def withBad (f : Fault) (q : Quoted) : Quoted := { q with bad := some f }

/-- The text spelled, if it is one. -/
def value? (q : Quoted) : Option String :=
  if q.bad.isSome then none else (textOfCodes q.codes).map String.ofList

/-- Reads a string literal after its opening quote; a line end stops it. -/
def ofString (quote : Char) (c : Cursor) : Quoted :=
  match h : c.rest with
  | [] => ended c none
  | x :: rest =>
    have hc : c.rest ≠ [] := by simp [h]
    if x = quote then ended c (some (c.skip 1))
    else if x = '\n' || x = '\r' then ended c none
    else if x = '\\' then
      match Escape.read rest with
      | .ok e =>
        have := Cursor.length_skip_lt (n := 1 + e.length) (by omega) hc
        (ofString quote (c.skip (1 + e.length))).consEscape c e
      | .error (cause, n) =>
        have := Cursor.length_skip_lt (n := 1 + n) (by omega) hc
        (ofString quote (c.skip (1 + n))).withBad (.of cause (c.spanTo (c.skip (1 + n))))
    else
      have := Cursor.length_skip_lt (n := 1) (by omega) hc
      (ofString quote (c.skip 1)).cons [x.toNat]
termination_by c.rest.length

/-- Reads a static part of a template literal up to a backquote or the start of a
substitution. A line end of any form counts as a line feed. -/
def ofTemplate (c : Cursor) : Quoted :=
  match h : c.rest with
  | [] => ended c none
  | '$' :: '{' :: _ => ended c (some (c.skip 2))
  | x :: rest =>
    have hc : c.rest ≠ [] := by simp [h]
    if x = '\x60' then ended c (some (c.skip 1))
    else if x = '\\' then
      match Escape.read rest with
      | .ok e =>
        have := Cursor.length_skip_lt (n := 1 + e.length) (by omega) hc
        let more := ofTemplate (c.skip (1 + e.length))
        if e.legacyOctal then more.withBad (.of .legacyOctal (c.spanTo (c.skip (1 + e.length))))
        else more.cons e.codes
      | .error (cause, n) =>
        have := Cursor.length_skip_lt (n := 1 + n) (by omega) hc
        (ofTemplate (c.skip (1 + n))).withBad (.of cause (c.spanTo (c.skip (1 + n))))
    else if x = '\r' then
      let n := if rest.head? = some '\n' then 2 else 1
      have := Cursor.length_skip_lt (n := n) (by simp only [n]; split <;> omega) hc
      (ofTemplate (c.skip n)).cons ['\n'.toNat]
    else
      have := Cursor.length_skip_lt (n := 1) (by omega) hc
      (ofTemplate (c.skip 1)).cons [x.toNat]
termination_by c.rest.length

/-- Reads the value of an element's attribute after its opening quote. It has character
references in place of escapes. -/
def ofAttribute (quote : Char) (c : Cursor) : Quoted :=
  match h : c.rest with
  | [] => ended c none
  | x :: rest =>
    have hc : c.rest ≠ [] := by simp [h]
    if x = quote then ended c (some (c.skip 1))
    else
      match if x = '&' then readReference? rest else none with
      | some (d, n) =>
        have := Cursor.length_skip_lt (n := 1 + n) (by omega) hc
        (ofAttribute quote (c.skip (1 + n))).cons [d.toNat]
      | none =>
        have := Cursor.length_skip_lt (n := 1) (by omega) hc
        (ofAttribute quote (c.skip 1)).cons [x.toNat]
termination_by c.rest.length

end Quoted

/-! ### Tokens -/

inductive Token.Kind
  | word (name : String)
  | privateName
  | number
  | string (value : Option String)
  | punctuator (text : String)
  | faulty (fault : Fault)
  | endOfSource
  deriving Repr, DecidableEq, Inhabited

/-- A token, with the faults to record when it is used. -/
structure Token where
  kind : Token.Kind
  start : Cursor
  after : Cursor
  newlineBefore : Bool
  recovered : List Fault
  deriving Repr, Inhabited

namespace Token

def span (t : Token) : Span := t.start.spanTo t.after

/-- How a token is named in a fault. -/
def text (t : Token) : String :=
  match t.kind with
  | .endOfSource => "<eof>"
  | .word name => name
  | .punctuator s => s
  | _ => String.ofList (t.start.rest.take (t.start.rest.length - t.after.rest.length))

/-- Longer punctuators stand before their beginnings. -/
def punctuators : List String :=
  [">>>=", "...", "===", "!==", "**=", "<<=", ">>=", ">>>", "&&=", "||=", "??=", "=>", "==", "!=",
    "<=", ">=", "&&", "||", "??", "?.", "++", "--", "+=", "-=", "*=", "/=", "%=", "&=", "|=", "^=",
    "<<", ">>", "**", "\x7b", "\x7d", "(", ")", "[", "]", ";", ",", "<", ">", "+", "-", "*", "/",
    "%", "&", "|", "^", "!", "~", "?", ":", "=", ".", "@", "`"]

/-- The longest punctuator at the head of a text. In `a?.5:b` the question mark stands alone. -/
def punctuator? (text : List Char) : Option String :=
  let fits (p : String) : Bool :=
    p.toList.isPrefixOf text && !(p == "?." && (text.drop 2).head?.any Char.isDigit)
  punctuators.find? fits

/-- The number of characters of a decimal literal: digits, a fraction, an exponent. -/
def decimalLength (text : List Char) : Nat :=
  let isDigitOrGap := fun (c : Char) => c.isDigit || c == '_'
  let whole := (text.takeWhile isDigitOrGap).length
  let afterWhole := text.drop whole
  let fraction :=
    if afterWhole.head? = some '.' then 1 + (afterWhole.tail.takeWhile isDigitOrGap).length else 0
  let exponent :=
    match afterWhole.drop fraction with
    | e :: rest =>
      if e = 'e' || e = 'E' then
        let sign := if rest.head? = some '+' || rest.head? = some '-' then 1 else 0
        let digits := ((rest.drop sign).takeWhile isDigitOrGap).length
        if digits = 0 then 0 else 1 + sign + digits
      else 0
    | [] => 0
  let suffix := if (afterWhole.drop (fraction + exponent)).head? = some 'n' then 1 else 0
  whole + fraction + exponent + suffix

/-- The number of characters of a numeric literal, and what is wrong with it. A leading zero
before another digit is an old way to write octal numbers. -/
def measureNumber (text : List Char) : Nat × Option Cause :=
  match text with
  | '0' :: c :: rest =>
    if c.isAlpha && c != 'e' && c != 'E' && c != 'n' then
      (2 + (rest.takeWhile fun d => d.isAlphanum || d == '_').length, none)
    else if c.isDigit then
      let digits := (c :: rest).takeWhile Char.isDigit
      if digits.any fun d => d == '8' || d == '9' then (decimalLength text, some .legacyDecimal)
      else (1 + digits.length, some .legacyOctal)
    else (decimalLength text, none)
  | _ => (decimalLength text, none)

/-- The token that starts at `c`, where no blank or comment stands. -/
def readAt (newlineBefore : Bool) (c : Cursor) : Token :=
  let make (kind : Kind) (after : Cursor) (recovered : List Fault) : Token :=
    ⟨kind, c, after, newlineBefore, recovered⟩
  match c.rest with
  | [] => make .endOfSource c []
  | x :: rest =>
    if x = '"' || x = '\'' then
      let q := Quoted.ofString x (c.skip 1)
      let after := q.after.getD q.inside
      match q.bad with
      | some f => make (.faulty f) after []
      | none =>
        let unclosed := if q.after.isNone then [.of .unterminatedString (c.spanTo after)] else []
        make (.string q.value?) after (q.octals ++ unclosed)
    else if x.isDigit || (x = '.' && rest.head?.any Char.isDigit) then
      let (n, cause) := measureNumber c.rest
      make .number (c.skip n) (cause.toList.map (.of · (c.spanTo (c.skip n))))
    else if isWordStart x then
      let n := wordLength c.rest
      make (.word (c.peek n)) (c.skip n) []
    else if x = '#' && rest.head?.any isWordStart then
      make .privateName (c.skip (1 + wordLength rest)) []
    else if x = '/' && rest.head? = some '*' then
      let stop := c.skip c.rest.length
      make (.faulty (.of .unterminatedComment (c.spanTo stop))) stop []
    else match punctuator? c.rest with
      | some p => make (.punctuator p) (c.skip p.length) []
      | none =>
        make (.faulty (.of (.unexpected (String.singleton x)) (c.spanTo (c.skip 1)))) (c.skip 1) []

/-- The next token after a place. -/
def read (c : Cursor) : Token :=
  let (start, newline) := skipTrivia c
  readAt newline start

end Token

end CosmeticLint.Script
