import CosmeticLint.Json.Text

/-! Writing JSON for people: every member and every element stands on a line of its own, two
spaces deeper than what holds it. -/

namespace CosmeticLint.Json

/-- A value as text, given how deep it stands. -/
abbrev Pretty := Nat → List Char

namespace Pretty

def indent (depth : Nat) : List Char := List.replicate (2 * depth) ' '

/-- Items on lines of their own, each but the last followed by a comma. -/
def itemLines (depth : Nat) : List Pretty → List Char
  | [] => []
  | [item] => indent depth ++ item depth ++ ['\n']
  | item :: items => indent depth ++ item depth ++ [',', '\n'] ++ itemLines depth items

/-- Items between two marks; nothing stands between the marks if there are none. -/
def block (opening closing : Char) (items : List Pretty) : Pretty := fun depth =>
  if items.isEmpty then [opening, closing]
  else [opening, '\n'] ++ itemLines (depth + 1) items ++ indent depth ++ [closing]

def nat (n : Nat) : Pretty := fun _ => (toString n).toList

def text (s : String) : Pretty := fun _ => string s

def list (items : List Pretty) : Pretty := block '[' ']' items

def object (members : List (String × Pretty)) : Pretty :=
  block '{' '}' (members.map fun m depth => string m.1 ++ [':', ' '] ++ m.2 depth)

def render (p : Pretty) : String := String.ofList (p 0)

end Pretty

end CosmeticLint.Json
