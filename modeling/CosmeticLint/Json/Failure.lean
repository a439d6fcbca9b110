import CosmeticLint.Text.Lines
import CosmeticLint.Text.Quoted

/-! Why a JSON text is refused. A failure is placed at a byte offset; its message gives the
line, and the bytes of that line up to the offset. -/

namespace CosmeticLint.Json

/-- A value that stands where another kind of value is wanted. -/
inductive Found
  | null
  | boolean (value : Bool)
  | integer (value : Int)
  | floating (text : String)
  | string (value : String)
  | sequence
  | map
  deriving Repr, DecidableEq, Inhabited

def Found.message : Found → String
  | null => "null"
  | boolean value => "boolean `" ++ (if value then "true" else "false") ++ "`"
  | integer value => "integer `" ++ toString value ++ "`"
  | floating text => "floating point `" ++ text ++ "`"
  | string value => "string " ++ quoted value
  | sequence => "sequence"
  | map => "map"

inductive Cause
  | endInValue
  | endInObject
  | endInList
  | endInString
  | expectedValue
  | expectedIdent
  | expectedColon
  | expectedCommaOrBrace
  | expectedCommaOrBracket
  | keyMustBeString
  | trailingComma
  | trailingCharacters
  | invalidNumber
  | numberOutOfRange
  | invalidEscape
  | controlCharacter
  | loneSurrogate
  | endOfHexEscape
  | duplicateField (name : String)
  | invalidType (found : Found) (expected : String)
  deriving Repr, DecidableEq, Inhabited

def Cause.message : Cause → String
  | endInValue => "EOF while parsing a value"
  | endInObject => "EOF while parsing an object"
  | endInList => "EOF while parsing a list"
  | endInString => "EOF while parsing a string"
  | expectedValue => "expected value"
  | expectedIdent => "expected ident"
  | expectedColon => "expected `:`"
  | expectedCommaOrBrace => "expected `,` or `\x7d`"
  | expectedCommaOrBracket => "expected `,` or `]`"
  | keyMustBeString => "key must be a string"
  | trailingComma => "trailing comma"
  | trailingCharacters => "trailing characters"
  | invalidNumber => "invalid number"
  | numberOutOfRange => "number out of range"
  | invalidEscape => "invalid escape"
  | controlCharacter => "control character (\\u0000-\\u001F) found while parsing a string"
  | loneSurrogate => "lone leading surrogate in hex escape"
  | endOfHexEscape => "unexpected end of hex escape"
  | duplicateField name => "duplicate field `" ++ name ++ "`"
  | invalidType found expected => "invalid type: " ++ found.message ++ ", expected " ++ expected

structure Failure where
  cause : Cause
  offset : Nat
  deriving Repr, DecidableEq, Inhabited

/-- The cause and the place of a failure in the text that was read. -/
def Failure.message (text : String) (f : Failure) : String :=
  let place := ((LineIndex.ofText text).lineCol? f.offset).getD ⟨0, 0⟩
  f.cause.message ++ " at line " ++ toString (place.line + 1) ++ " column " ++ toString place.col

end CosmeticLint.Json
