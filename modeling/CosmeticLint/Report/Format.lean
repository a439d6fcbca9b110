import CosmeticLint.Report.Entry
import CosmeticLint.Text.Split

/-! The ways to show what was found in a file. -/

namespace CosmeticLint.Report

open Lint

inductive Format
  | human
  /-- With the line of each finding and a mark under its place. -/
  | humanVerbose
  | json
  | machine
  deriving Repr, DecidableEq, Inhabited

namespace Format

def ofName? : String → Option Format
  | "human" => some human
  | "human-verbose" => some humanVerbose
  | "json" => some json
  | "machine" => some machine
  | _ => none

end Format

def spaces (n : Nat) : String := String.ofList (List.replicate n ' ')

/-- The line of a place with its number, and a mark below it at the place's column. -/
def snippet (lines : List (List Char)) (place : LineCol) : String :=
  match lines[place.line]? with
  | none => ""
  | some line =>
    let number := toString (place.line + 1)
    "  " ++ number ++ " | " ++ String.ofList line ++ "\n" ++
      "  " ++ spaces number.length ++ " | " ++ spaces place.col ++ "^\n"

/-- One record, an empty line after it. -/
def humanRecord (rule path : String) (ix : LineIndex) (d : Diagnostic) : String :=
  (Entry.ofDiagnostic rule path ix d).headline ++ "\n"

def verboseRecord (rule path : String) (ix : LineIndex) (lines : List (List Char))
    (d : Diagnostic) : String :=
  (Entry.ofDiagnostic rule path ix d).headline ++ snippet lines (placeOf ix d.span.start) ++ "\n"

/-- What is shown for the diagnostics of one file. -/
def textOfFile (format : Format) (rule path source : String) (ds : List Diagnostic) : String :=
  let ix := LineIndex.ofText source
  match format with
  | .human => String.join (ds.map (humanRecord rule path ix))
  | .humanVerbose =>
    let lines := shownLines source.toList
    String.join (ds.map (verboseRecord rule path ix lines))
  | .json => jsonText (Entry.ofFile rule path source ds)
  | .machine => String.join (ds.map fun d => (Entry.ofDiagnostic rule path ix d).machineLine)

end CosmeticLint.Report
