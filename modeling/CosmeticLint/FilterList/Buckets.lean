import CosmeticLint.FilterList.Artifact
import CosmeticLint.FilterList.Selector

/-! The selectors of a filter list sorted by kind. -/

namespace CosmeticLint.FilterList

/-- Each bucket keeps the order of the list, and repetitions. -/
structure Buckets where
  ids : List String
  classes : List String
  simpleAttributes : List String
  complexAttributes : List String
  elements : List String
  deriving Repr, DecidableEq, Inhabited

namespace Buckets

def empty : Buckets := ⟨[], [], [], [], []⟩

def push (b : Buckets) : Selector → Buckets
  | .id name => { b with ids := b.ids ++ [name] }
  | .class name => { b with classes := b.classes ++ [name] }
  | .simpleAttribute text => { b with simpleAttributes := b.simpleAttributes ++ [text] }
  | .complexAttribute text => { b with complexAttributes := b.complexAttributes ++ [text] }
  | .element text => { b with elements := b.elements ++ [text] }

def ofFilterList (text : String) : Buckets :=
  (hidingSelectors text).foldl (fun b s => b.push (.classify s)) empty

def total (b : Buckets) : Nat :=
  b.ids.length + b.classes.length + b.simpleAttributes.length + b.complexAttributes.length +
    b.elements.length

/-- Only ids and classes are kept. -/
def toArtifact (b : Buckets) : Artifact := ⟨b.ids, b.classes⟩

/-- Replaces the ids and classes. -/
def withArtifact (b : Buckets) (a : Artifact) : Buckets :=
  { b with ids := a.ids, classes := a.classes }

end Buckets

end CosmeticLint.FilterList
