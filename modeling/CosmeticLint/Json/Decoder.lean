import CosmeticLint.Json.Double
import CosmeticLint.Json.Failure
import CosmeticLint.Text.Cursor

/-! Reading JSON as a stream into the values that are wanted. The first problem met is the one
reported. A value of the wrong kind is read to its end to be named, unless it is a list or an
object; values under keys that nobody asks for are only checked to be well formed. -/

namespace CosmeticLint.Json

abbrev Decoder := StateT Cursor (Except Failure)

namespace Decoder

/-- Fails at the end of what was read. -/
def fail {α : Type} (cause : Cause) : Decoder α := do throw ⟨cause, (← get).offset⟩

/-- Fails at the next byte, which counts as seen if there is one. -/
def failNext {α : Type} (cause : Cause) : Decoder α := do
  let c ← get
  throw ⟨cause, if c.rest.isEmpty then c.offset else c.offset + 1⟩

def peek : Decoder (Option Char) := return (← get).rest.head?

def skip : Decoder Unit := modify (·.skip 1)

def isBlank (c : Char) : Bool := c == ' ' || c == '\n' || c == '\t' || c == '\r'

/-- The next character that is not blank. -/
def peekValue : Decoder (Option Char) := do
  modify (·.skipWhile isBlank)
  peek

/-! ### Words and numbers -/

/-- The rest of one of the three words. -/
def rest : List Char → Decoder Unit
  | [] => return
  | x :: xs => do
    match ← peek with
    | none => fail .endInValue
    | some y =>
      if y = x then
        skip
        rest xs
      else failNext .expectedIdent

/-- The digits at the reading place. -/
def digits : Decoder (List Char) := do
  let ds := (← get).rest.takeWhile Char.isDigit
  modify (·.skip ds.length)
  return ds

/-- Digits that continue a number while it stays below a limit; the answer holds the number and
how many digits were used. -/
def growBelow (limit value used : Nat) : List Char → Nat × Nat
  | [] => (value, used)
  | d :: ds =>
    let grown := value * 10 + (d.toNat - '0'.toNat)
    if grown < limit then growBelow limit grown (used + 1) ds else (value, used)

def floating (negative : Bool) (significand : Nat) (exponent : Int) : Decoder Found := do
  match Double.ofDecimal? significand exponent with
  | some d => return .floating ((if negative then "-" else "") ++ d.text)
  | none => fail .numberOutOfRange

/-- An exponent, from its letter on. -/
def exponentPart (negative : Bool) (significand : Nat) (before : Int) : Decoder Found := do
  skip
  let sign ← peek
  if sign = some '+' || sign = some '-' then skip
  match ← peek with
  | none => fail .endInValue
  | some d =>
    if !d.isDigit then failNext .invalidNumber
    else
      let start := (← get).offset
      let ds ← digits
      let (value, used) := growBelow (Nat.pow 2 31) 0 0 ds
      if used < ds.length then
        if significand ≠ 0 && sign ≠ some '-' then throw ⟨.numberOutOfRange, start + used + 1⟩
        else floating negative 0 0
      else if sign = some '-' then floating negative significand (before - value)
      else floating negative significand (before + value)

def atExponent : Decoder Bool := do
  match ← peek with
  | some c => return c == 'e' || c == 'E'
  | none => return false

/-- A fraction, from its point on. Digits that no longer fit are dropped. -/
def fractionPart (negative : Bool) (significand : Nat) (before : Int) : Decoder Found := do
  skip
  let ds ← digits
  if ds.isEmpty then
    if (← peek).isNone then failNext .endInValue else failNext .invalidNumber
  else
    let (value, used) := growBelow (Nat.pow 2 64) significand 0 ds
    if ← atExponent then exponentPart negative value (before - used)
    else floating negative value (before - used)

/-- A number after its sign. Whole numbers of 64 bits are told from floating ones. -/
def number (negative : Bool) : Decoder Found := do
  match ← peek with
  | none => fail .endInValue
  | some first =>
    if !first.isDigit then failNext .invalidNumber
    else
      skip
      let more ← if first = '0' then pure [] else digits
      if first = '0' && (← peek).any Char.isDigit then failNext .invalidNumber
      else
        let (value, used) := growBelow (Nat.pow 2 64) (first.toNat - '0'.toNat) 0 more
        let dropped : Int := (more.length : Int) - (used : Int)
        if (← peek) = some '.' then fractionPart negative value dropped
        else if ← atExponent then exponentPart negative value dropped
        else if dropped ≠ 0 then floating negative value dropped
        else if !negative then return .integer value
        else if value = 0 || Nat.pow 2 63 < value then floating negative value 0
        else return .integer (-value)

/-! ### Strings -/

/-- The value of four hexadecimal digits. -/
def hexValue? (ds : List Char) : Option Nat :=
  ds.foldlM (fun n c =>
    if c.isDigit then some (n * 16 + (c.toNat - '0'.toNat))
    else if 'a' ≤ c ∧ c ≤ 'f' then some (n * 16 + (c.toNat - 'a'.toNat + 10))
    else if 'A' ≤ c ∧ c ≤ 'F' then some (n * 16 + (c.toNat - 'A'.toNat + 10))
    else none) 0

/-- The four bytes of a hexadecimal escape. -/
def hexEscape : Decoder Nat := do
  let c ← get
  if byteLength (c.rest.take 4) < 4 then
    set (c.skip c.rest.length)
    fail .endInString
  else match hexValue? (c.rest.take 4) with
    | some n =>
      set (c.skip 4)
      return n
    | none => throw ⟨.invalidEscape, c.offset + 4⟩

/-- The next character of a string, which has to exist. -/
def peekInString : Decoder Char := do
  match ← peek with
  | some c => return c
  | none => fail .endInString

def nextInString : Decoder Char := do
  let c ← peekInString
  skip
  return c

/-- The second escape of a pair. -/
def lowSurrogate (high : Nat) : Decoder Char := do
  if (← peekInString) ≠ '\\' then failNext .endOfHexEscape
  skip
  if (← peekInString) ≠ 'u' then failNext .endOfHexEscape
  skip
  let low ← hexEscape
  if low < 0xdc00 || 0xdfff < low then fail .loneSurrogate
  else return Char.ofNat (0x10000 + (high - 0xd800) * 0x400 + (low - 0xdc00))

/-- A character by its number; two escapes make one character beyond the basic plane. -/
def unicodeEscape : Decoder Char := do
  let n ← hexEscape
  if 0xdc00 ≤ n && n ≤ 0xdfff then fail .loneSurrogate
  else if 0xd800 ≤ n && n ≤ 0xdbff then lowSurrogate n
  else return Char.ofNat n

/-- The characters that an escape of one letter stands for. -/
def simpleEscape? : Char → Option Char
  | '"' => some '"'
  | '\\' => some '\\'
  | '/' => some '/'
  | 'b' => some '\x08'
  | 'f' => some '\x0c'
  | 'n' => some '\n'
  | 'r' => some '\r'
  | 't' => some '\t'
  | _ => none

/-- What follows a backslash. -/
def escape : Decoder Char := do
  let c ← peekInString
  if c = 'u' then
    skip
    unicodeEscape
  else match simpleEscape? c with
    | some d =>
      skip
      return d
    | none => failNext .invalidEscape

def isControl (c : Char) : Bool := c.toNat < 0x20

/-- The characters of a string after its opening quote, its closing quote used. Each turn uses
a character, so the length of the text bounds their number. -/
def stringChars : Nat → Decoder (List Char)
  | 0 => fail .endInString
  | fuel + 1 => do
    let c ← nextInString
    if c = '"' then return []
    else if c = '\\' then
      let d ← escape
      return d :: (← stringChars fuel)
    else if isControl c then fail .controlCharacter
    else return c :: (← stringChars fuel)

/-- A string after its opening quote. -/
def stringBody : Decoder String := do
  let chars ← stringChars ((← get).rest.length + 1)
  return String.ofList chars

/-! ### Values that nobody asks for -/

/-- An escape whose meaning does not matter. -/
def skipEscape : Decoder Unit := do
  let c ← peekInString
  if c = 'u' then
    skip
    discard hexEscape
  else if (simpleEscape? c).isSome then skip
  else failNext .invalidEscape

/-- Skips a string after its opening quote. -/
def skipString : Nat → Decoder Unit
  | 0 => fail .endInString
  | fuel + 1 => do
    let c ← peekInString
    if isControl c then fail .controlCharacter
    else
      skip
      if c = '"' then return
      else if c = '\\' then
        skipEscape
        skipString fuel
      else skipString fuel

def skipStringBody : Decoder Unit := do skipString ((← get).rest.length + 1)

def skipExponent : Decoder Unit := do
  skip
  let sign ← peek
  if sign = some '+' || sign = some '-' then skip
  if (← peek).any Char.isDigit then discard digits else failNext .invalidNumber

/-- Skips a number after its sign; its size does not matter. -/
def skipNumber : Decoder Unit := do
  match ← peek with
  | none => fail .invalidNumber
  | some first =>
    if !first.isDigit then failNext .invalidNumber
    else
      skip
      if first ≠ '0' then discard digits
      else if (← peek).any Char.isDigit then failNext .invalidNumber
      if (← peek) = some '.' then
        skip
        if (← digits).isEmpty then failNext .invalidNumber
        if ← atExponent then skipExponent
      else if ← atExponent then skipExponent

/-- What encloses a value that is skipped. -/
inductive Frame
  | list
  | object

/-- A key and its colon, in an object that is skipped. -/
def skipKey : Decoder Unit := do
  match ← peekValue with
  | some '"' =>
    skip
    skipStringBody
    match ← peekValue with
    | some ':' => skip
    | some _ => failNext .expectedColon
    | none => failNext .endInObject
  | some _ => failNext .keyMustBeString
  | none => failNext .endInObject

mutual

/-- Skips a value inside `frames`, and then everything up to the end of the outermost. -/
def skipValue : Nat → List Frame → Decoder Unit
  | 0, _ => failNext .endInValue
  | fuel + 1, frames => do
    match ← peekValue with
    | none => failNext .endInValue
    | some 'n' =>
      skip
      rest ['u', 'l', 'l']
      skipFollowing fuel frames
    | some 't' =>
      skip
      rest ['r', 'u', 'e']
      skipFollowing fuel frames
    | some 'f' =>
      skip
      rest ['a', 'l', 's', 'e']
      skipFollowing fuel frames
    | some '-' =>
      skip
      skipNumber
      skipFollowing fuel frames
    | some '"' =>
      skip
      skipStringBody
      skipFollowing fuel frames
    | some '[' =>
      skip
      match ← peekValue with
      | none => failNext .endInList
      | some ']' =>
        skip
        skipFollowing fuel frames
      | some _ => skipValue fuel (.list :: frames)
    | some '{' =>
      skip
      match ← peekValue with
      | none => failNext .endInObject
      | some '}' =>
        skip
        skipFollowing fuel frames
      | some _ =>
        skipKey
        skipValue fuel (.object :: frames)
    | some c =>
      if c.isDigit then
        skipNumber
        skipFollowing fuel frames
      else failNext .expectedValue

/-- Skips what follows a value inside `frames`. -/
def skipFollowing : Nat → List Frame → Decoder Unit
  | _, [] => return
  | 0, _ => failNext .endInValue
  | fuel + 1, .list :: frames => do
    match ← peekValue with
    | some ',' =>
      skip
      skipValue fuel (.list :: frames)
    | some ']' =>
      skip
      skipFollowing fuel frames
    | some _ => failNext .expectedCommaOrBracket
    | none => failNext .endInList
  | fuel + 1, .object :: frames => do
    match ← peekValue with
    | some ',' =>
      skip
      skipKey
      skipValue fuel (.object :: frames)
    | some '}' =>
      skip
      skipFollowing fuel frames
    | some _ => failNext .expectedCommaOrBrace
    | none => failNext .endInObject

end

/-- Skips one value. -/
def ignored : Decoder Unit := do skipValue (2 * (← get).rest.length + 2) []

/-! ### Wanted values -/

/-- Reads a value of the wrong kind far enough to name it. -/
def wrongType {α : Type} (expected : String) : Decoder α := do
  let found : Found ← match ← peek with
    | some 'n' => do
      skip
      rest ['u', 'l', 'l']
      pure .null
    | some 't' => do
      skip
      rest ['r', 'u', 'e']
      pure (.boolean true)
    | some 'f' => do
      skip
      rest ['a', 'l', 's', 'e']
      pure (.boolean false)
    | some '-' => do
      skip
      number true
    | some '"' => do
      skip
      pure (.string (← stringBody))
    | some '[' => pure .sequence
    | some '{' => pure .map
    | some c => if c.isDigit then number false else failNext .expectedValue
    | none => failNext .expectedValue
  fail (.invalidType found expected)

/-- Reads the first character of a value. -/
def valueStart : Decoder Char := do
  match ← peekValue with
  | some c => return c
  | none => failNext .endInValue

/-- A string; `expected` says what it stands for. -/
def string (expected : String) : Decoder String := do
  if (← valueStart) = '"' then
    skip
    stringBody
  else wrongType expected

def boolean : Decoder Bool := do
  match ← valueStart with
  | 't' =>
    skip
    rest ['r', 'u', 'e']
    return true
  | 'f' =>
    skip
    rest ['a', 'l', 's', 'e']
    return false
  | _ => wrongType "a boolean"

/-- A value that may be null. -/
def nullable {α : Type} (value : Decoder α) : Decoder (Option α) := do
  match ← peekValue with
  | some 'n' =>
    skip
    rest ['u', 'l', 'l']
    return none
  | _ => some <$> value

/-- Whether another element follows in a list; `first` says that none was read. -/
def hasElement (first : Bool) : Decoder Bool := do
  match ← peekValue with
  | none => failNext .endInList
  | some ']' => return false
  | some c =>
    if first then return true
    else if c = ',' then
      skip
      match ← peekValue with
      | some ']' => failNext .trailingComma
      | some _ => return true
      | none => failNext .endInValue
    else failNext .expectedCommaOrBracket

/-- The end of a list whose wanted elements were read. -/
def endList : Decoder Unit := do
  match ← peekValue with
  | some ']' => skip
  | some ',' =>
    skip
    match ← peekValue with
    | some ']' => failNext .trailingComma
    | _ => failNext .trailingCharacters
  | some _ => failNext .trailingCharacters
  | none => failNext .endInList

/-- The elements of a list up to its closing bracket. -/
def elements {α : Type} (item : Decoder α) : Nat → Bool → Decoder (List α)
  | 0, _ => failNext .endInList
  | fuel + 1, first => do
    if ← hasElement first then
      let a ← item
      return a :: (← elements item fuel false)
    else return []

def list {α : Type} (item : Decoder α) : Decoder (List α) := do
  if (← valueStart) = '[' then
    skip
    let items ← elements item ((← get).rest.length + 1) true
    endList
    return items
  else wrongType "a sequence"

/-- A field of a record `σ`: its key, and how its value changes the record. -/
structure Field (σ : Type) where
  key : String
  read : σ → Decoder σ

/-- Whether another key follows in an object; `first` says that none was read. -/
def hasKey (first : Bool) : Decoder Bool := do
  match ← peekValue with
  | none => failNext .endInObject
  | some '}' => return false
  | some c =>
    if first then if c = '"' then return true else failNext .keyMustBeString
    else if c = ',' then
      skip
      match ← peekValue with
      | some '"' => return true
      | some '}' => failNext .trailingComma
      | some _ => failNext .keyMustBeString
      | none => failNext .endInValue
    else failNext .expectedCommaOrBrace

def colon : Decoder Unit := do
  match ← peekValue with
  | some ':' => skip
  | some _ => failNext .expectedColon
  | none => failNext .endInObject

/-- Moves over what could end an object, before a repeated field is reported. -/
def passEnd : Decoder Unit := do
  if (← peekValue) = some '}' then skip

/-- The members of an object up to its closing brace; `seen` are the known keys met. -/
def members {σ : Type} (fields : List (Field σ)) : Nat → Bool → List String → σ → Decoder σ
  | 0, _, _, _ => failNext .endInObject
  | fuel + 1, first, seen, record => do
    if ← hasKey first then
      skip
      let key ← stringBody
      match fields.find? (·.key == key) with
      | some field =>
        if seen.contains key then
          passEnd
          fail (.duplicateField key)
        else
          colon
          let record ← field.read record
          members fields fuel false (key :: seen) record
      | none =>
        colon
        ignored
        members fields fuel false seen record
    else return record

/-- The elements of a list taken as the fields in order; missing ones keep their defaults. -/
def positional {σ : Type} : List (Field σ) → Bool → σ → Decoder σ
  | [], _, record => return record
  | field :: fields, first, record => do
    if ← hasElement first then positional fields false (← field.read record)
    else return record

/-- A record, as an object or as the list of its fields. Fields that do not occur keep the
values they have in `default`. -/
def record {σ : Type} (expected : String) (fields : List (Field σ)) (default : σ) : Decoder σ := do
  match ← valueStart with
  | '[' =>
    skip
    let r ← positional fields true default
    endList
    return r
  | '{' =>
    skip
    let r ← members fields ((← get).rest.length + 1) true [] default
    skip
    return r
  | _ => wrongType expected

/-- Reads a whole text. -/
def run {α : Type} (d : Decoder α) (text : String) : Except Failure α := do
  let whole : Decoder α := do
    let a ← d
    if (← peekValue).isSome then failNext .trailingCharacters else return a
  let (a, _) ← StateT.run whole (Cursor.ofText text)
  return a

end Decoder

end CosmeticLint.Json
