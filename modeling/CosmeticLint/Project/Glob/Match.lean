import CosmeticLint.Project.Glob

/-! Matching paths. A pattern is compared with the bytes of a path, and has to match all of
them. What may be left of a path after a piece is a list of its ends, without repetition. -/

namespace CosmeticLint.Project

namespace Glob

abbrev Bytes := List UInt8

def bytesOf (text : String) : Bytes := text.toUTF8.data.toList

def slash : UInt8 := 47

/-- All ends of a text, the text itself first. -/
def ends : Bytes → List Bytes
  | [] => [[]]
  | b :: bs => (b :: bs) :: ends bs

/-- The ends that directly follow a slash. -/
def endsAfterSlash : Bytes → List Bytes
  | [] => []
  | b :: bs => if b = slash then bs :: endsAfterSlash bs else endsAfterSlash bs

/-- What follows `wanted` at the start of a text. -/
def dropBytes? : Bytes → Bytes → Option Bytes
  | [], bs => some bs
  | w :: ws, b :: bs => if w = b then dropBytes? ws bs else none
  | _ :: _, [] => none

/-! ### Classes -/

/-- Whether a byte is listed by a range. A character of several bytes lists each of them, and a
range reaches from the last byte of its first character to the first byte of its last. -/
def inRange (b : UInt8) (range : Char × Char) : Bool :=
  let first := bytesOf (String.singleton range.1)
  let last := bytesOf (String.singleton range.2)
  if range.1 = range.2 then first.contains b
  else
    first.contains b || last.contains b ||
      (first.getLastD 0 ≤ b && b ≤ last.headD 0)

def inClass (negated : Bool) (ranges : List (Char × Char)) (b : UInt8) : Bool :=
  ranges.any (inRange b) != negated

/-! ### Pieces -/

mutual

/-- Whether a piece is made of empty branches only. -/
def Piece.isVoid : Piece → Bool
  | .branches alternatives => allBranchesVoid alternatives
  | _ => false

def allVoid : List Piece → Bool
  | [] => true
  | p :: ps => p.isVoid && allVoid ps

def allBranchesVoid : List (List Piece) → Bool
  | [] => true
  | ps :: rest => allVoid ps && allBranchesVoid rest

end

mutual

/-- What may be left after a piece. Branches with nothing in them are dropped, and a group
without other branches matches the empty text. -/
def Piece.rests : Piece → Bytes → List Bytes
  | .literal c, bs => (dropBytes? (bytesOf (String.singleton c)) bs).toList
  | .anyByte, bs => match bs with
    | [] => []
    | _ :: rest => [rest]
  | .anyBytes, bs => ends bs
  | .leadingDirectories, bs => bs :: endsAfterSlash bs
  | .innerDirectories, bs => match bs with
    | [] => []
    | b :: rest => if b = slash then rest :: endsAfterSlash rest else []
  | .everythingBelow, bs => match bs with
    | [] => []
    | b :: rest => if b = slash then ends rest else []
  | .oneOf negated ranges, bs => match bs with
    | [] => []
    | b :: rest => if inClass negated ranges b then [rest] else []
  | .branches alternatives, bs =>
    if allBranchesVoid alternatives then [bs] else (branchRests alternatives bs).eraseDups

/-- What may be left after pieces in a row. -/
def rowRests : List Piece → List Bytes → List Bytes
  | [], starts => starts
  | p :: ps, starts => rowRests ps (starts.flatMap p.rests).eraseDups

def branchRests : List (List Piece) → Bytes → List Bytes
  | [], _ => []
  | ps :: rest, bs =>
    (if allVoid ps then [] else rowRests ps [bs]) ++ branchRests rest bs

end

end Glob

/-- A pattern of two stars alone matches everything. -/
def Glob.matchesPath (g : Glob) (path : String) : Bool :=
  match g.pieces with
  | [.leadingDirectories] => true
  | pieces => (Glob.rowRests pieces [Glob.bytesOf path]).any List.isEmpty

end CosmeticLint.Project
