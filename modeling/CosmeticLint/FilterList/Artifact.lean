import CosmeticLint.Json.Decoder
import CosmeticLint.Json.Text

/-! The names that a filter list hides, as a file shared by the generator and the linter. -/

namespace CosmeticLint.FilterList

/-- Hidden ids and classes without their marks, in list order and with repetitions. -/
structure Artifact where
  ids : List String
  classes : List String
  deriving Repr, DecidableEq, Inhabited

namespace Artifact

def empty : Artifact := ⟨[], []⟩

/-- The names used when no list is given. -/
def bundled : Artifact := ⟨["AC_ad"], ["AD-POST", "adsbygoogle"]⟩

def names : Json.Decoder (List String) := .list (.string "a string")

/-- Either field may be missing. -/
def decoder : Json.Decoder Artifact :=
  .record "struct SelectorArtifact"
    [⟨"id", fun a => do return { a with ids := ← names }⟩,
      ⟨"class", fun a => do return { a with classes := ← names }⟩] empty

def ofJson (text : String) : Except Json.Failure Artifact := decoder.run text

/-- What is said of a text that is no artifact. -/
def refusal (text : String) (f : Json.Failure) : String :=
  "invalid selector artifact: " ++ f.message text

def toJsonChars (a : Artifact) : List Char :=
  "\x7b\"id\":".toList ++ Json.stringList a.ids ++ ",\"class\":".toList ++
    Json.stringList a.classes ++ "\x7d".toList

def toJson (a : Artifact) : String := String.ofList a.toJsonChars

/-! ### Questions about names

Names are compared exactly. -/

def isForbiddenId (a : Artifact) (name : String) : Bool := a.ids.contains name

def isForbiddenClass (a : Artifact) (name : String) : Bool := a.classes.contains name

/-- How many names there are, each counted once. -/
def size (a : Artifact) : Nat := a.ids.eraseDups.length + a.classes.eraseDups.length

def isEmpty (a : Artifact) : Bool := a.ids.isEmpty && a.classes.isEmpty

/-- Names in the order of their UTF-8 bytes, each once. -/
def sorted (names : List String) : List String :=
  names.eraseDups.mergeSort fun a b => decide (a ≤ b)

end Artifact

end CosmeticLint.FilterList
