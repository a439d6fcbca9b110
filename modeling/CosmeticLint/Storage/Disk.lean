import CosmeticLint.Storage.Files

/-! Files kept as a value. -/

namespace CosmeticLint.Storage

/-- A file, or a directory of named trees. -/
inductive Tree
  | file (content : ByteArray)
  | directory (entries : List (String × Tree))
  deriving Inhabited

namespace Tree

/-- The tree that names lead to. -/
def get? : Tree → List String → Option Tree
  | t, [] => some t
  | file _, _ :: _ => none
  | directory entries, name :: names => (entries.lookup name).bind (·.get? names)

/-- Replaces the entry of a name, or adds one. -/
def replaceEntry (name : String) (t : Tree) : List (String × Tree) → List (String × Tree)
  | [] => [(name, t)]
  | e :: es => if e.1 = name then (name, t) :: es else e :: replaceEntry name t es

/-- Puts a tree where names lead to; directories on the way are made. -/
def put (new : Tree) : Tree → List String → Tree
  | _, [] => new
  | file _, name :: names => directory [(name, put new (directory []) names)]
  | directory entries, name :: names =>
    directory (replaceEntry name
      (put new ((entries.lookup name).getD (directory [])) names) entries)

/-- The names that a path's parts lead to from `here`. -/
def resolve (t : Tree) (here : List String) : List String → Except Fault (List String)
  | [] => .ok here
  | part :: parts =>
    match t.get? here with
    | some (directory entries) =>
      if part = "" || part = "." then t.resolve here parts
      else if part = ".." then t.resolve here.dropLast parts
      else if (entries.lookup part).isSome then t.resolve (here ++ [part]) parts
      else .error .notFound
    | some (file _) => .error .notDirectory
    | none => .error .notFound

mutual

/-- The files of a tree as paths seen from it. -/
def files : Tree → List String
  | file _ => [""]
  | directory entries =>
    ((filesOfEntries entries).mergeSort fun a b => decide (a.1 ≤ b.1)).flatMap (·.2)

/-- The files of each entry under its name. -/
def filesOfEntries : List (String × Tree) → List (String × List String)
  | [] => []
  | (name, t) :: rest => (name, t.files.map (pathBelow name)) :: filesOfEntries rest

end

end Tree

/-- All files, and the directory that relative paths start from. -/
structure Disk where
  root : Tree
  current : List String
  deriving Inhabited

namespace Disk

def pathParts (path : String) : List String := (splitAtChar '/' path.toList).map String.ofList

/-- Where a path starts. -/
def base (d : Disk) (path : String) : List String := if Path.isAbsolute path then [] else d.current

/-- The names that a path leads to. -/
def locate (d : Disk) (path : String) : Except Fault (List String) :=
  if path.isEmpty then .error .notFound else d.root.resolve (d.base path) (pathParts path)

def read (d : Disk) (path : String) : Except Fault ByteArray := do
  match d.root.get? (← d.locate path) with
  | some (.file content) => return content
  | some (.directory _) => .error .isDirectory
  | none => .error .notFound

/-- The names of a file that is about to be written; its directory has to exist. -/
def target (d : Disk) (path : String) : Except Fault (List String) := do
  if path.isEmpty then .error .notFound
  else
    let parts := pathParts path
    let trimmed := (parts.reverse.dropWhile (· == "")).reverse
    let directory ← d.root.resolve (d.base path) trimmed.dropLast
    match d.root.get? directory with
    | some (.directory entries) =>
      let name := trimmed.getLastD ""
      if trimmed.length < parts.length || name = "" || name = "." || name = ".." then
        .error .isDirectory
      else match entries.lookup name with
        | some (.directory _) => .error .isDirectory
        | _ => return directory ++ [name]
    | some (.file _) => .error .notDirectory
    | none => .error .notFound

/-- Writes a file, replacing what it held. -/
def write (d : Disk) (path : String) (content : ByteArray) : Except Fault Disk := do
  return { d with root := .put (.file content) d.root (← d.target path) }

/-- Puts a file or a directory at a path below the current directory; directories on the way
are made. -/
def put (d : Disk) (path : String) (t : Tree) : Disk :=
  { d with root := .put t d.root (d.current ++ Path.parts path) }

def below (d : Disk) (path : String) : List String :=
  match d.locate path with
  | .error _ => []
  | .ok names => ((d.root.get? names).map Tree.files).getD []

def files (d : Disk) : Files Id where
  read := d.read
  below := d.below

/-- Writing as a step that keeps the disk as it was if it fails. -/
def writeStep (path : String) (content : ByteArray) : StateM Disk (Except Fault Unit) := do
  match (← get).write path content with
  | .ok d =>
    set d
    return .ok ()
  | .error fault => return .error fault

end Disk

end CosmeticLint.Storage
