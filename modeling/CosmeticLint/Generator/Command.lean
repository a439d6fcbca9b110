import CosmeticLint.CommandLine.Answer
import CosmeticLint.Generator.Generate
import CosmeticLint.Text.Quoted

/-! The generator as a command. -/

namespace CosmeticLint.Generator

open CommandLine FilterList

structure Options where
  url : String
  output : String
  print : Bool
  deriving Repr, DecidableEq, Inhabited

namespace Options

def default : Options where
  url := "https://easylist.to/easylist/easylist.txt"
  output := "crates/selector-list/data/easylist-css-selectors.json"
  print := false

def specs : List (Spec Options) :=
  [⟨"url", .single fun v o => some { o with url := v }⟩,
    ⟨"output", .single fun v o => some { o with output := v }⟩,
    ⟨"print", .flag ({ · with print := true })⟩]

def read (arguments : List String) : Except Stop Options :=
  CommandLine.read specs default arguments

end Options

def title : Title where
  name := "easylist-gen"
  version := "0.3.1"
  about := "Regenerates the ad-blocker selector list from EasyList"

/-- The names that were written, if they are asked for, and how many there are. -/
def reportOf (o : Options) (b : Buckets) : String :=
  (if o.print then
    "ids: " ++ quotedList b.ids ++ "\nclasses: " ++ quotedList b.classes ++ "\n"
  else "") ++
    "Wrote " ++ toString b.ids.length ++ " ids and " ++ toString b.classes.length ++
    " classes to " ++ o.output ++ "\n"

def answerOf (o : Options) : Except Fault Buckets → Answer
  | .ok buckets => ⟨0, reportOf o buckets, []⟩
  | .error fault => ⟨1, "", fault.message :: fault.reason?.toList⟩

def command {m : Type → Type} [Monad m] (fetch : String → m (Option Response)) (write : Write m)
    (arguments : List String) : m Answer := do
  match Options.read arguments with
  | .error stop => return stop.answer title Options.specs
  | .ok o => return answerOf o (← generate write o.url o.output (← fetch o.url))

end CosmeticLint.Generator
