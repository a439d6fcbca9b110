import CosmeticLint.Text.Split

/-! Reading a command line. Options have long names and take effect from left to right; a value
is handed over when the next option, or the end of the line, shows that nothing else follows. -/

namespace CosmeticLint.CommandLine

/-- What an option does to the choices `σ` made so far. -/
inductive Action (σ : Type)
  /-- Takes no value and may be given once. -/
  | flag (choose : σ → σ)
  /-- Takes a value and may be given once. The value can be refused. -/
  | single (choose : String → σ → Option σ)
  /-- Takes a value and may be given again and again. -/
  | repeatable (choose : String → σ → Option σ)

structure Spec (σ : Type) where
  name : String
  action : Action σ

/-- Why a command line gives no choices. -/
inductive Stop
  | help
  | version
  | unknownArgument
  | invalidValue
  | repeatedArgument
  | unexpectedValue
  deriving Repr, DecidableEq, Inhabited

/-- Asking for help or for the version is no mistake. -/
def Stop.exitCode : Stop → Nat
  | help | version => 0
  | _ => 2

/-- An option whose effect is still to come. -/
inductive Pending (σ : Type)
  | none
  | awaiting (option : Spec σ)
  | holding (option : Spec σ) (value : String)

structure State (σ : Type) where
  chosen : σ
  /-- The names of the options that took effect. -/
  given : List String
  pending : Pending σ
  /-- Nothing after two dashes is an option. -/
  optionsEnded : Bool

namespace State

variable {σ : Type}

def start (default : σ) : State σ := ⟨default, [], .none, false⟩

/-- Records an option that may be given once. -/
def once (s : State σ) (name : String) : Except Stop (State σ) :=
  if s.given.contains name then .error .repeatedArgument
  else .ok { s with given := name :: s.given }

def accept (s : State σ) : Option σ → Except Stop (State σ)
  | some chosen => .ok { s with chosen := chosen }
  | none => .error .invalidValue

/-- Gives an option its value. -/
def apply (s : State σ) (option : Spec σ) (value : String) : Except Stop (State σ) :=
  match option.action with
  | .flag _ => .error .unexpectedValue
  | .single choose => do (← s.once option.name).accept (choose value s.chosen)
  | .repeatable choose => s.accept (choose value s.chosen)

/-- Lets the pending option take effect. -/
def settle (s : State σ) : Except Stop (State σ) :=
  match s.pending with
  | .none => .ok s
  | .awaiting _ => .error .invalidValue
  | .holding option value => { s with pending := .none }.apply option value

/-- A name with two dashes before it, and the value attached to it if there is one. -/
def longOption (specs : List (Spec σ)) (s : State σ) (name : String) (attached : Option String) :
    Except Stop (State σ) := do
  match specs.find? (·.name == name), attached with
  | none, none =>
    if name = "help" then do
      discard s.settle
      .error .help
    else if name = "version" then do
      discard s.settle
      .error .version
    else .error .unknownArgument
  | none, some _ =>
    if name = "help" || name = "version" then .error .unexpectedValue
    else .error .unknownArgument
  | some option, attached =>
    match option.action, attached with
    | .flag _, some _ => .error .unexpectedValue
    | .flag choose, none => do
      let s ← (← s.settle).once option.name
      return { s with chosen := choose s.chosen }
    | _, some value => do (← s.settle).apply option value
    | _, none => return { (← s.settle) with pending := .awaiting option }

/-- Letters with one dash before them; the first one decides. -/
def shortOption (s : State σ) (letter : Char) : Except Stop (State σ) := do
  if letter = 'h' then do
    discard s.settle
    .error .help
  else if letter = 'V' then do
    discard s.settle
    .error .version
  else .error .unknownArgument

/-- A word that is no option is the value of the option before it. -/
def word (s : State σ) (value : String) : Except Stop (State σ) :=
  match s.pending with
  | .awaiting option => .ok { s with pending := .holding option value }
  | _ => .error .unknownArgument

/-- The part of a text before the first `=`, and the part after it. -/
def splitAttached (cs : List Char) : String × Option String :=
  match splitAtChar '=' cs with
  | name :: _ :: _ => (String.ofList name, some (String.ofList (cs.drop (name.length + 1))))
  | _ => (String.ofList cs, none)

def step (specs : List (Spec σ)) (s : State σ) (argument : String) : Except Stop (State σ) :=
  if s.optionsEnded then .error .unknownArgument
  else match argument.toList with
    | ['-', '-'] => .ok { s with optionsEnded := true }
    | '-' :: '-' :: cs =>
      let (name, attached) := splitAttached cs
      s.longOption specs name attached
    | '-' :: c :: _ => s.shortOption c
    | _ => s.word argument

end State

/-- The choices that a command line makes. -/
def read {σ : Type} (specs : List (Spec σ)) (default : σ) (arguments : List String) :
    Except Stop σ := do
  let s ← arguments.foldlM (State.step specs) (.start default)
  return (← s.settle).chosen

end CosmeticLint.CommandLine
