import CosmeticLint.Script.Reader

/-! Template literals: static parts in turn with substitutions. -/

namespace CosmeticLint.Script

open Reader

/-- Reads a template from its backquote on. In a tagged template a part may hold an escape
without a meaning; it then has no value. -/
def readTemplate (tagged : Bool) (substitution : Reader Unit) : Reader Unit := do
  let start := (← current).start
  seek (start.skip 1)
  loop do
    let part := (← get).place
    let quoted := Quoted.ofTemplate part
    match quoted.after with
    | none => fail .unterminatedTemplate (start.spanTo quoted.inside)
    | some after =>
      if !tagged then
        if let some f := quoted.bad then throw f
      record .quasi quoted.value? (part.spanTo quoted.inside)
      seek after
      if quoted.inside.rest.head? ≠ some '$' then return false
      inBrackets substitution
      let close ← current
      unless close.kind == .punctuator "\x7d" do failHere (.expected "\x7d" close.text)
      seek (close.start.skip 1)
      return true

end CosmeticLint.Script
