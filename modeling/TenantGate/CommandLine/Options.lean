import TenantGate.LogLevel
import TenantGate.Url.Parse
/-!
# Options of a command

Options have long names; most of them take a value, in the same argument after an equals sign or in
the next one.  A value is looked at only when something else comes after it, so an unknown option
is told before a wrong value in front of it.
-/

namespace TenantGate
namespace CommandLine

inductive UsageError
  /-- Help was asked for. -/
  | help
  /-- Nothing was said at all. -/
  | nothingGiven
  | missingCommand
  | unknownCommand
  | unknownArgument
  | missingArgument
  | missingValue
  | invalidValue
  | unwantedValue
  | repeated
  deriving DecidableEq, Repr

def UsageError.exitCode : UsageError → Nat
  | .help => 0
  | _ => 2

inductive OptionKind
  | help
  | switch
  | text
  /-- The name of a file, which is never empty. -/
  | path
  | level
  | url
  deriving DecidableEq, Repr

inductive OptionValue
  | on
  | text (s : String)
  | level (l : LogLevel)
  | url (u : Url)
  deriving DecidableEq, Repr

structure OptionSpec where
  name : String
  kind : OptionKind
  /-- The environment variable that is looked at when the option is not given. -/
  fallback : Option String := none
  deriving DecidableEq, Repr

namespace OptionKind

def takesValue : OptionKind → Bool
  | .help => false
  | .switch => false
  | _ => true

def read (s : String) : OptionKind → Except UsageError OptionValue
  | .help => .error .help
  | .switch => .ok .on
  | .text => .ok (.text s)
  | .path => if s.isEmpty then .error .missingValue else .ok (.text s)
  | .level => match LogLevel.ofText? s with
    | some l => .ok (.level l)
    | none => .error .invalidValue
  | .url => match Url.parse s with
    | .ok u => .ok (.url u)
    | .error _ => .error .invalidValue

end OptionKind

abbrev Values := List (String × OptionValue)

namespace Values

def has (values : Values) (name : String) : Bool := (values.lookup name).isSome

def text? (values : Values) (name : String) : Option String :=
  match values.lookup name with
  | some (.text s) => some s
  | _ => none

def level? (values : Values) (name : String) : Option LogLevel :=
  match values.lookup name with
  | some (.level l) => some l
  | _ => none

def url? (values : Values) (name : String) : Option Url :=
  match values.lookup name with
  | some (.url u) => some u
  | _ => none

def required {α : Type} : Option α → Except UsageError α
  | some x => .ok x
  | none => .error .missingArgument

/-- An option is given once. -/
def assign (values : Values) (spec : OptionSpec) (text : String) : Except UsageError Values :=
  if values.has spec.name then .error .repeated
  else do return (spec.name, ← spec.kind.read text) :: values

def complete (environment : String → Option String) (values : Values) :
    List OptionSpec → Except UsageError Values
  | [] => .ok values
  | spec :: specs =>
    match spec.fallback.bind environment with
    | some text =>
      if values.has spec.name then complete environment values specs
      else do complete environment (← values.assign spec text) specs
    | none => complete environment values specs

end Values

inductive Argument
  /-- Two hyphens: no options follow. -/
  | endOfOptions
  | long (name : String) (value : Option String)
  | short (letter : Char)
  | plain (text : String)
  deriving DecidableEq, Repr

namespace Argument

def ofText (s : String) : Argument :=
  match s.toList with
  | ['-', '-'] => .endOfOptions
  | '-' :: '-' :: name =>
    match name.dropWhile (· != '=') with
    | [] => .long (String.ofList name) none
    | _ :: value => .long (String.ofList (name.takeWhile (· != '='))) (some (String.ofList value))
  | '-' :: letter :: _ => .short letter
  | _ => .plain s

end Argument

/-- The values read so far, and the last option with its value as far as that is known. -/
structure Progress where
  values : Values := []
  pending : Option (OptionSpec × Option String) := none

namespace Progress

def settle (p : Progress) : Except UsageError Values :=
  match p.pending with
  | none => .ok p.values
  | some (_, none) => .error .missingValue
  | some (spec, some text) => p.values.assign spec text

def awaitsValue (p : Progress) : Bool := p.pending.any (·.2.isNone)

def giveValue (p : Progress) (text : String) : Progress :=
  { p with pending := p.pending.map fun q => (q.1, some text) }

def askForHelp (p : Progress) : Except UsageError Progress := do
  let _ ← p.settle
  throw .help

def long (specs : List OptionSpec) (p : Progress) (name : String) (value : Option String) :
    Except UsageError Progress :=
  match specs.find? (·.name == name), value with
  | none, _ => .error .unknownArgument
  | some spec, some text =>
    if spec.kind.takesValue then do return { values := ← (← p.settle).assign spec text }
    else .error .unwantedValue
  | some spec, none =>
    if spec.kind = .help then p.askForHelp
    else if spec.kind.takesValue then do return ⟨← p.settle, some (spec, none)⟩
    else do return { values := ← (← p.settle).assign spec "" }

def short (p : Progress) (letter : Char) : Except UsageError Progress :=
  if letter = 'h' then p.askForHelp else .error .unknownArgument

end Progress

/-- The values that a list of arguments gives; no argument stands without an option. -/
def readOptions (specs : List OptionSpec) (p : Progress) : List String → Except UsageError Values
  | [] => p.settle
  | arg :: args =>
    match Argument.ofText arg with
    | .endOfOptions => if args.isEmpty then p.settle else .error .unknownArgument
    | .long name value => do readOptions specs (← p.long specs name value) args
    | .short letter => do readOptions specs (← p.short letter) args
    | .plain text =>
      if p.awaitsValue then readOptions specs (p.giveValue text) args else .error .unknownArgument

end CommandLine
end TenantGate
