import CosmeticLint.Text.Path

/-! Access to files, wherever they are kept. -/

namespace CosmeticLint.Storage

/-- Why a file cannot be used. -/
inductive Fault
  | notFound
  | notDirectory
  | isDirectory
  | notText
  /-- Anything else, in the words of the system. -/
  | other (text : String)
  deriving Repr, DecidableEq, Inhabited

namespace Fault

def message : Fault → String
  | notFound => "No such file or directory (os error 2)"
  | notDirectory => "Not a directory (os error 20)"
  | isDirectory => "Is a directory (os error 21)"
  | notText => "stream did not contain valid UTF-8"
  | other text => text

/-- Whether there is no such file at all. -/
def isMissing : Fault → Bool
  | notFound | notDirectory => true
  | _ => false

end Fault

/-- Bytes that are valid UTF-8, as text. -/
def textOf (content : ByteArray) : Except Fault String :=
  match String.fromUTF8? content with
  | some text => .ok text
  | none => .error .notText

/-- A place to read files from. -/
structure Files (m : Type → Type) where
  read : String → m (Except Fault ByteArray)
  /-- The files below a directory as paths seen from it. Entries come in the order of their
  names' bytes, those of a directory at its place. A file is found at the empty path. -/
  below : String → m (List String)

def Files.readText {m : Type → Type} [Monad m] (files : Files m) (path : String) :
    m (Except Fault String) := do
  return (← files.read path).bind textOf

/-- The path of a file found below a directory. -/
def pathBelow (directory found : String) : String :=
  if found.isEmpty then directory else Path.join directory found

end CosmeticLint.Storage
