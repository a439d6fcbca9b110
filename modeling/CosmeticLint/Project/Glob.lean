/-! Patterns for paths. `?` stands for one byte and `*` for any bytes, slashes included; `**`
between slashes stands for whole directories; `[...]` lists bytes, `\x7b...\x7d` lists branches,
and a backslash takes the next character as it is. -/

namespace CosmeticLint.Project

namespace Glob

/-- A part of a pattern. -/
inductive Piece
  | literal (c : Char)
  | anyByte
  | anyBytes
  /-- Any directories, or none, at the start. -/
  | leadingDirectories
  /-- A slash, with any directories after it. -/
  | innerDirectories
  /-- A slash and everything after it. -/
  | everythingBelow
  | oneOf (negated : Bool) (ranges : List (Char × Char))
  | branches (alternatives : List (List Piece))
  deriving Repr, Inhabited

inductive Fault
  | unclosedClass
  | invalidRange (first last : Char)
  | unclosedBranches
  | unopenedBranches
  | danglingEscape
  deriving Repr, DecidableEq, Inhabited

def Fault.message : Fault → String
  | unclosedClass => "unclosed character class; missing ']'"
  | invalidRange first last =>
    "invalid range; '" ++ String.singleton first ++ "' > '" ++ String.singleton last ++ "'"
  | unclosedBranches =>
    "unclosed alternate group; missing '\x7d' (maybe escape '\x7b' with '[\x7b]'?)"
  | unopenedBranches =>
    "unopened alternate group; missing '\x7b' (maybe escape '\x7d' with '[\x7d]'?)"
  | danglingEscape => "dangling '\\'"

/-! ### Character classes -/

/-- Moves the end of the last range. -/
def extendLast (ranges : List (Char × Char)) (last : Char) :
    Except Fault (List (Char × Char)) :=
  match ranges.getLast? with
  | none => .ok [(last, last)]
  | some (first, _) =>
    if last < first then .error (.invalidRange first last)
    else .ok (ranges.dropLast ++ [(first, last)])

/-- The ranges of a class up to its closing bracket, and what follows it. `dash` says that a
dash waits for the end of its range. -/
def readRanges (ranges : List (Char × Char)) (dash : Bool) :
    List Char → Except Fault (List (Char × Char) × List Char)
  | [] => .error .unclosedClass
  | c :: cs => do
    if c = ']' then return (if dash then ranges ++ [('-', '-')] else ranges, cs)
    else if dash then readRanges (← extendLast ranges c) false cs
    else if c = '-' then readRanges ranges true cs
    else readRanges (ranges ++ [(c, c)]) false cs

/-- A class after its opening bracket. Its first character is always taken as it is. -/
def readClass (cs : List Char) : Except Fault (Piece × List Char) := do
  let negated := cs.head? = some '!' || cs.head? = some '^'
  match if negated then cs.tail else cs with
  | [] => .error .unclosedClass
  | first :: rest =>
    let (ranges, rest) ← readRanges [(first, first)] false rest
    return (.oneOf negated ranges, rest)

/-! ### Reading a pattern -/

/-- A group of branches that is still open: what stands before it, and its finished branches. -/
structure Group where
  before : List Piece
  finished : List (List Piece)

/-- How far a pattern was read: the pieces of the branch at hand, and the groups around it,
innermost first. -/
structure Progress where
  pieces : List Piece
  groups : List Group

namespace Progress

def start : Progress := ⟨[], []⟩

def push (s : Progress) (p : Piece) : Progress := { s with pieces := s.pieces ++ [p] }

def openGroup (s : Progress) : Progress := ⟨[], ⟨s.pieces, []⟩ :: s.groups⟩

def closeGroup (s : Progress) : Except Fault Progress :=
  match s.groups with
  | [] => .error .unopenedBranches
  | g :: groups => .ok ⟨g.before ++ [.branches (g.finished ++ [s.pieces])], groups⟩

/-- A comma divides branches inside a group, and is a plain character outside. -/
def comma (s : Progress) : Progress :=
  match s.groups with
  | [] => s.push (.literal ',')
  | g :: groups => ⟨[], { g with finished := g.finished ++ [s.pieces] } :: groups⟩

/-- Replaces the piece before two stars, which is the slash that leads to them. -/
def replaceLast (s : Progress) (p : Piece) : Progress :=
  let kept := match s.pieces.getLast? with
    | some .leadingDirectories => .leadingDirectories
    | some .everythingBelow => .everythingBelow
    | _ => p
  { s with pieces := s.pieces.dropLast ++ [kept] }

/-- Two stars between the characters `previous` and `next`; the flag says that `next` is used. -/
def doubleStar (s : Progress) (previous next : Option Char) : Progress × Bool :=
  let plain := ((s.push .anyBytes).push .anyBytes, false)
  let inside := !s.groups.isEmpty
  if s.pieces.isEmpty then
    if next.isNone || next = some '/' then (s.push .leadingDirectories, true) else plain
  else if previous = some '/' || (inside && (previous = some ',' || previous = some '{')) then
    if next.isNone || (inside && (next = some ',' || next = some '}')) then
      (s.replaceLast .everythingBelow, false)
    else if next = some '/' then (s.replaceLast .innerDirectories, true)
    else plain
  else plain

end Progress

/-- The pieces of a pattern; `previous` is the character before `cs`. Each turn uses a
character, so their number bounds the turns. -/
def readFrom : Nat → Progress → Option Char → List Char → Except Fault Progress
  | 0, s, _, _ => .ok s
  | _, s, _, [] => .ok s
  | fuel + 1, s, previous, c :: cs => do
    match c with
    | '?' => readFrom fuel (s.push .anyByte) (some c) cs
    | '*' =>
      match cs with
      | '*' :: rest =>
        let (s, used) := s.doubleStar previous rest.head?
        if used then readFrom fuel s (some '/') rest.tail else readFrom fuel s (some '*') rest
      | _ => readFrom fuel (s.push .anyBytes) (some c) cs
    | '[' =>
      let (piece, rest) ← readClass cs
      readFrom fuel (s.push piece) (some ']') rest
    | '{' => readFrom fuel s.openGroup (some c) cs
    | '}' => readFrom fuel (← s.closeGroup) (some c) cs
    | ',' => readFrom fuel s.comma (some c) cs
    | '\\' =>
      match cs with
      | [] => .error .danglingEscape
      | d :: rest => readFrom fuel (s.push (.literal d)) (some d) rest
    | _ => readFrom fuel (s.push (.literal c)) (some c) cs

end Glob

/-- A pattern for paths. -/
structure Glob where
  pieces : List Glob.Piece
  deriving Repr, Inhabited

def Glob.parse (pattern : String) : Except Glob.Fault Glob := do
  let cs := pattern.toList
  let s ← Glob.readFrom cs.length .start none cs
  if s.groups.isEmpty then return ⟨s.pieces⟩ else .error .unclosedBranches

end CosmeticLint.Project
