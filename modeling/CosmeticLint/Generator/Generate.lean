import CosmeticLint.FilterList.Buckets
import CosmeticLint.Storage.Files

/-! Making the file of forbidden names from a filter list that was downloaded. -/

namespace CosmeticLint.Generator

open FilterList

/-- What a server answered. -/
structure Response where
  status : Nat
  body : String
  deriving Repr, DecidableEq, Inhabited

/-- Errors of the client and of the server. -/
def Response.isError (r : Response) : Bool := 400 ≤ r.status && r.status ≤ 599

inductive Fault
  | transport (url : String)
  | persistence (path : String) (cause : Storage.Fault)
  deriving Repr, DecidableEq, Inhabited

namespace Fault

def message : Fault → String
  | transport url => "failed to fetch " ++ url
  | persistence path _ => "failed to write " ++ path

/-- What lies behind a fault. -/
def reason? : Fault → Option String
  | transport _ => none
  | persistence path cause => some (path ++ ": " ++ cause.message)

end Fault

/-- The text of a filter list; no answer at all is as bad as an error. -/
def fetched (url : String) : Option Response → Except Fault String
  | none => .error (.transport url)
  | some r => if r.isError then .error (.transport url) else .ok r.body

/-- A way to write files. -/
abbrev Write (m : Type → Type) := String → ByteArray → m (Except Storage.Fault Unit)

/-- Writes the ids and classes of a filter list to `output`, and gives back its selectors of all
kinds. Nothing is written unless the list arrived. -/
def generate {m : Type → Type} [Monad m] (write : Write m) (url output : String)
    (response : Option Response) : m (Except Fault Buckets) := do
  match fetched url response with
  | .error fault => return .error fault
  | .ok text =>
    let buckets := Buckets.ofFilterList text
    match ← write output buckets.toArtifact.toJson.toUTF8 with
    | .ok () => return .ok buckets
    | .error cause => return .error (.persistence output cause)

end CosmeticLint.Generator
