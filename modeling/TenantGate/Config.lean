import TenantGate.Text.Quoted
import TenantGate.Yaml.Node
/-!
# Settings

A file may say where errors are reported and how the metrics are called.  A setting that is not
given has its default, and a setting that is not known is passed over.
-/

namespace TenantGate

structure Config where
  /-- Where errors are reported. -/
  sentryDsn : Option String := none
  /-- The name under which they are reported. -/
  environment : Option String := none
  /-- The start of the name of the request metric. -/
  space : Option String := none
  deriving DecidableEq, Repr

/-- What is found under the name of a settings file. -/
inductive ConfigFile
  | holding (bytes : Bytes)
  /-- There is something, but it has no bytes to read. -/
  | unreadable
  | missing (reason : String)
  deriving DecidableEq, Repr

inductive ConfigError
  | missingFile (reason : String)
  /-- What the file holds gives no settings. -/
  | malformed
  | invalidSpace (space : String)
  | emptySentryDsn
  deriving DecidableEq, Repr

def ConfigError.message : ConfigError → String
  | .missingFile reason => "could not load config from file: " ++ reason
  | .malformed => "could not parse config"
  | .invalidSpace space =>
    "metrics.namespace is not a valid metric name prefix: " ++ Text.quoted space
  | .emptySentryDsn => "logging.sentry_dsn must not be empty"

namespace Config
open Yaml

def nullTag : Bytes := Bytes.ofText "tag:yaml.org,2002:null"

def isNull (s : String) : Bool := ["~", "null", "Null", "NULL"].contains s

def text? (root n : Node) : Option String := do
  match ← Node.resolve root n with
  | .scalar _ _ text => some text
  | _ => none

/-- A text that may be left out, be empty or be null. -/
def optionalText? (root n : Node) : Option (Option String) := do
  match ← Node.resolve root n with
  | .scalar p isPlain text =>
    if !isPlain then some (some text)
    else
      match p.tag with
      | some tag =>
        if tag ≠ nullTag then some (some text) else if isNull text then some none else none
      | none => some (if text.isEmpty || isNull text then none else some text)
  | _ => none

def entries? (root n : Node) : Option (List (Node × Node)) := do
  match ← Node.resolve root n with
  | .mapping _ entries => some entries
  | .scalar _ true "" => some []
  | _ => none

/-- A mapping whose keys are texts.  What `names` mentions is given once at most. -/
def fields? (root : Node) (names : List String) (n : Node) : Option (List (String × Node)) := do
  let fields ← (← entries? root n).mapM fun (k, v) => do return (← text? root k, v)
  if names.all fun name => (fields.filter (·.1 == name)).length ≤ 1 then some fields else none

def section? (root : Node) (fields : List (String × Node)) (title : String) (names : List String) :
    Option (List (Option String)) :=
  match fields.lookup title with
  | none => some (names.map fun _ => none)
  | some n => do
    let fields ← fields? root names n
    names.mapM fun name => match fields.lookup name with
      | none => some none
      | some v => optionalText? root v

def ofNode? (root : Node) : Option Config := do
  let fields ← fields? root ["logging", "metrics"] root
  match ← section? root fields "logging" ["sentry_dsn", "environment"],
      ← section? root fields "metrics" ["namespace"] with
  | [dsn, environment], [space] => some ⟨dsn, environment, space⟩
  | _, _ => none

/-- The settings that a file holds; an empty file gives none. -/
def read? (b : Bytes) : Option Config := do
  match ← node? b with
  | some root => ofNode? root
  | none => some {}

def ofFile : ConfigFile → Except ConfigError Config
  | .holding b => match read? b with
    | some config => .ok config
    | none => .error .malformed
  | .unreadable => .error .malformed
  | .missing reason => .error (.missingFile reason)

def isLeadingChar (c : Char) : Bool := c.isAlpha || c == '_' || c == ':'

def isSpace (s : String) : Bool :=
  match s.toList with
  | [] => false
  | c :: cs => isLeadingChar c && cs.all fun c => isLeadingChar c || c.isDigit

def validate (config : Config) : Except ConfigError Unit :=
  match config.space, config.sentryDsn with
  | some space, dsn =>
    if !isSpace space then .error (.invalidSpace space)
    else if dsn = some "" then .error .emptySentryDsn
    else .ok ()
  | none, dsn => if dsn = some "" then .error .emptySentryDsn else .ok ()

def spaceOr (config : Config) (default : String) : String := config.space.getD default

theorem validate_eq_ok_iff {config : Config} :
    config.validate = .ok () ↔
      (∀ space, config.space = some space → isSpace space = true) ∧
        config.sentryDsn ≠ some "" := by
  unfold validate
  cases config.space with
  | none => by_cases h : config.sentryDsn = some "" <;> simp [h]
  | some space =>
    by_cases h : config.sentryDsn = some "" <;> by_cases hs : isSpace space <;> simp [h, hs]

end Config
end TenantGate
