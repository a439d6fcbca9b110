import CosmeticLint.Lint.Check
import CosmeticLint.Project.Glob.Match
import CosmeticLint.Project.Options
import CosmeticLint.Project.Settings
import CosmeticLint.Report.Summary
import CosmeticLint.Storage.Files

/-! Checking a project: its settings and forbidden names are loaded, its files are found and
checked, and what was found is shown. -/

namespace CosmeticLint.Project

open FilterList Lint Report Storage

/-! ### Checking files that were found -/

/-- A check of single files: the name of its rule, and what it reports of a path and a text. -/
structure Checker where
  rule : String
  report : String → String → List Diagnostic

/-- The check with some rules. It goes by the name of the first. -/
def Checker.ofRules (rules : List Rule) (can : Capabilities) : Checker :=
  ⟨(rules.head?.map (·.about.name)).getD "", applyRules Script.collect rules can⟩

/-- A file that was found. -/
structure Source where
  path : String
  text : Except Fault String

/-- What one file adds to the output and to the totals. -/
structure Share where
  text : String
  entries : List Entry
  errors : Nat
  warnings : Nat

/-- A file adds its text, or its entries if the output is JSON. -/
def Share.ofFile (format : Format) (rule shown text : String) (ds : List Diagnostic) : Share where
  text := if format = .json then "" else textOfFile format rule shown text ds
  entries := if format = .json then Entry.ofFile rule shown text ds else []
  errors := ds.countP (·.isError)
  warnings := ds.countP (·.severity = .warning)

/-- A file that cannot be read adds nothing, nor does one of which nothing is reported. Its path
is shown as seen from the workspace. -/
def Source.share? (checker : Checker) (o : Options) (workspace : String) (s : Source) :
    Option Share :=
  match s.text with
  | .error _ => none
  | .ok text =>
    let ds := (checker.report s.path text).filter fun d => o.threshold.admits d.severity
    if ds.isEmpty then none
    else some (.ofFile o.format checker.rule (Path.seenFrom workspace s.path) text ds)

def addShare (s : Summary) (share : Share) : Summary :=
  { s with errors := s.errors + share.errors, warnings := s.warnings + share.warnings }

/-- What a run prints, and its totals. -/
structure Outcome where
  output : String
  summary : Summary

/-- What is printed: the entries of all files in JSON, or their texts followed by the totals. -/
def outputOf (format : Format) (summary : Summary) (shares : List Share) : String :=
  if format = .json then jsonText (shares.flatMap (·.entries)) ++ "\n"
  else String.join (shares.map (·.text)) ++ summary.text ++ "\n"

def checkSources (checker : Checker) (o : Options) (workspace : String) (sources : List Source) :
    Outcome :=
  let shares := sources.filterMap (Source.share? checker o workspace)
  let summary := shares.foldl addShare ⟨sources.length, 0, 0, o.failOnWarnings⟩
  ⟨outputOf o.format summary shares, summary⟩

/-! ### Loading -/

/-- Why a project cannot be checked. -/
inductive RunFault
  | invalidGlob (pattern : String) (fault : Glob.Fault)
  | unreadableNames (path : String) (fault : Fault)
  | malformedNames (text : String) (failure : Json.Failure)

def RunFault.message : RunFault → String
  | invalidGlob pattern fault =>
    "invalid glob pattern: error parsing glob '" ++ pattern ++ "': " ++ fault.message
  | unreadableNames path fault =>
    "failed to load selector list: " ++ path ++ ": " ++ fault.message
  | malformedNames text failure =>
    "failed to load selector list: " ++ Artifact.refusal text failure

/-- Paths that are never checked. -/
def alwaysIgnored : List String :=
  ["**/node_modules/**", "**/dist/**", "**/.git/**", "**/target/**"]

def parseGlobs (patterns : List String) : Except RunFault (List Glob) :=
  patterns.mapM fun p => (Glob.parse p).mapError (.invalidGlob p)

/-- A run reads files, writes warnings and may fail. -/
abbrev Run (m : Type → Type) := ExceptT RunFault (StateT (List String) m)

section

variable {m : Type → Type} [Monad m]

def warn (message : String) : Run m Unit := modify (· ++ [message])

/-- The settings of a project. Without a file, or with one that makes no sense, they have their
defaults. -/
def loadSettings (files : Files m) (workspace : String) : Run m Settings := do
  let path := Path.join workspace Settings.fileName
  let refuse (reason : String) : Run m Settings := do
    warn ("Failed to parse " ++ path ++ ": " ++ reason)
    return .default
  match (← (files.readText path : m _)) with
  | .error fault => if fault.isMissing then return .default else refuse fault.message
  | .ok text => match Settings.ofJson text with
    | .ok settings => return settings
    | .error failure => refuse (failure.message text)

/-- The file that forbidden names come from, if they are not the bundled ones. -/
def namesPath (o : Options) (settings : Settings) (workspace : String) : Option String :=
  o.selectors.or (settings.selectors.map (Path.join workspace))

def loadNames (files : Files m) (path : Option String) : Run m Artifact := do
  match path with
  | none => return .bundled
  | some path => match (← (files.readText path : m _)) with
    | .error fault => throw (.unreadableNames path fault)
    | .ok text => match Artifact.ofJson text with
      | .ok names => return names
      | .error failure => throw (.malformedNames text failure)

/-- Whether a file is to be checked. -/
def isWanted (extensions : List String) (ignored : List Glob) (workspace path : String) : Bool :=
  (Path.extension? path).any extensions.contains &&
    !ignored.any (·.matchesPath (Path.seenFrom workspace path))

def loadSource (files : Files m) (path : String) : Run m Source := do
  let text ← (files.readText path : m _)
  if let .error fault := text then warn ("Failed to read " ++ path ++ ": " ++ fault.message)
  return ⟨path, text⟩

/-- Checks the project that the options name, relative paths starting from `directory`. -/
def runChecks (files : Files m) (directory : String) (o : Options) : Run m Outcome := do
  let workspace := Path.join directory o.workspace
  let settings ← loadSettings files workspace
  let ignored ← MonadExcept.ofExcept (parseGlobs (o.ignore ++ settings.ignore ++ alwaysIgnored))
  let names ← loadNames files (namesPath o settings workspace)
  let can : Capabilities :=
    if o.noTemplateParser || settings.templateParser = some false then .scriptOnly else .full
  let paths := (← (files.below workspace : m _)).map (pathBelow workspace)
  let wanted := paths.filter (isWanted settings.fileExtensions ignored workspace)
  let sources ← wanted.mapM (loadSource files)
  return checkSources (.ofRules (Rule.all names) can) o workspace sources

/-- The outcome of a run, and its warnings. -/
def run (files : Files m) (directory : String) (o : Options) :
    m (Except RunFault Outcome × List String) :=
  (runChecks files directory o).run []

end

end CosmeticLint.Project
