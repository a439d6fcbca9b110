import CosmeticLint.Generator.Command
import CosmeticLint.Project.Command

/-! The two commands. The one that runs is told by the name of the executable: the generator goes
by its own name, and everything else is the linter. -/

namespace CosmeticLint

open CommandLine Storage

def faultOf : IO.Error → Fault
  | .noFileOrDirectory _ _ _ => .notFound
  | .inappropriateType (some _) _ _ => .notDirectory
  | .inappropriateType none _ _ => .isDirectory
  | e => .other (toString e)

/-- Runs an action on files, its error given back as a value. -/
def attempt {α : Type} (action : IO α) : IO (Except Fault α) := do
  try
    return .ok (← action)
  catch e => return .error (faultOf e)

/-- The files below a path, links left out. -/
partial def filesBelow (path : String) : IO (List String) := do
  let here := (← IO.currentDir) / path
  match (← here.symlinkMetadata).type with
  | .file => return [""]
  | .dir =>
    let names := (← here.readDir).toList.map (·.fileName)
    let found ← (names.mergeSort fun a b => decide (a ≤ b)).mapM fun name => do
      try
        return (← filesBelow (Path.join path name)).map (pathBelow name)
      catch _ => return []
    return found.flatten
  | _ => return []

/-- The files of this machine. -/
def machineFiles : Files IO where
  read path := attempt (IO.FS.readBinFile path)
  below path := do
    try
      filesBelow path
    catch _ => return []

def writeFile : Generator.Write IO := fun path content => attempt (IO.FS.writeBinFile path content)

/-- Lists can only be fetched from files of this machine. -/
def fetchFile (url : String) : IO (Option Generator.Response) := do
  let scheme := "file://"
  if scheme.toList.isPrefixOf url.toList then
    let path := String.ofList (url.toList.drop scheme.length)
    match ← machineFiles.readText path with
    | .ok body => return some ⟨200, body⟩
    | .error _ => return none
  else return none

def runCommand (arguments : List String) : IO Answer := do
  if (← IO.appPath).fileName = some Generator.title.name then
    Generator.command fetchFile writeFile arguments
  else
    Project.command machineFiles (← IO.currentDir).toString arguments

end CosmeticLint

def main (arguments : List String) : IO UInt32 := do
  let answer ← CosmeticLint.runCommand arguments
  for remark in answer.remarks do
    IO.eprintln remark
  IO.print answer.output
  return answer.exitCode.toUInt32
