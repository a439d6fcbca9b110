import CosmeticLint.Text.Split

/-! Paths with `/` between their parts. -/

namespace CosmeticLint.Path

/-- What stands between the slashes of a path. -/
def pieces (path : String) : List (List Char) := splitAtChar '/' path.toList

/-- Empty pieces and `.` name nothing. -/
def isName (piece : List Char) : Bool := piece ≠ [] && piece ≠ ['.']

/-- The parts of a path that name something. -/
def parts (path : String) : List String := ((pieces path).filter isName).map String.ofList

/-- The last part, unless it leads upwards. -/
def fileName? (path : String) : Option String := (parts path).getLast?.filter (· ≠ "..")

/-- What follows the last dot of the file's name; a dot at its start is part of the name. -/
def extension? (path : String) : Option String :=
  (fileName? path).bind fun name =>
    let pieces := splitAtChar '.' name.toList
    let before := pieces.dropLast
    if before = [] || before = [[]] then none else pieces.getLast?.map String.ofList

def isAbsolute (path : String) : Bool := path.toList.head? = some '/'

/-- A path inside a directory; an absolute path stays as it is. -/
def join (directory path : String) : String :=
  if isAbsolute path || directory.isEmpty then path
  else if directory.toList.getLast? = some '/' then directory ++ path
  else directory ++ "/" ++ path

/-! ### Paths below a directory -/

/-- Where a path starts: at the root, at a `.`, or at its first name. -/
def head (path : String) : List Char :=
  if isAbsolute path then ['/'] else if (pieces path).head? = some ['.'] then ['.'] else []

/-- What is left of some pieces behind the names that they begin with. -/
def dropNames : List (List Char) → List (List Char) → Option (List (List Char))
  | [], pieces => some pieces
  | _ :: _, [] => none
  | name :: names, piece :: pieces =>
    if !isName piece then dropNames (name :: names) pieces
    else if piece = name then dropNames names pieces
    else none

/-- Pieces from the first name to the last one, as a path. -/
def ofPieces (pieces : List (List Char)) : String :=
  let fromFirst := pieces.dropWhile (!isName ·)
  let toLast := (fromFirst.reverse.dropWhile (!isName ·)).reverse
  String.ofList (['/'].intercalate toLast)

/-- The path seen from a directory, if the names of the directory are the first ones of the
path. -/
def below? (directory path : String) : Option String :=
  if head directory = head path then
    (dropNames ((pieces directory).filter isName) (pieces path)).map ofPieces
  else none

/-- The path seen from a directory that it lies below, or else as it is. -/
def seenFrom (directory path : String) : String := (below? directory path).getD path

end CosmeticLint.Path
