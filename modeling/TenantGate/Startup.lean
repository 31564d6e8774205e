import TenantGate.Causes
import TenantGate.CommandLine.Invocation
import TenantGate.Config
import TenantGate.Dsn
import TenantGate.Listen
import TenantGate.Metrics.Definition
/-!
# Starting a service

A service starts in stages: the settings are read and checked, then the address for errors, the
metrics, the keys, the backends and the address to listen on.  The first stage that fails ends the
start, and nothing is served.
-/

namespace TenantGate

inductive MetricsError
  /-- A histogram has no bounds. -/
  | noBounds
  | unavailable (reason : String)
  deriving DecidableEq, Repr

def MetricsError.message : MetricsError → String
  | .noBounds =>
    "could not configure prometheus exporter: bucket bounds/quantiles cannot be empty"
  | .unavailable reason => "could not install prometheus recorder: " ++ reason

inductive StartupError
  | config (error : ConfigError)
  | dsn (error : DsnError)
  | metrics (error : MetricsError)
  | keys (error : KeySetError)
  | setup (error : SetupError)
  | listen (error : Listen.AddressError)
  deriving DecidableEq, Repr

namespace StartupError

def messages : StartupError → String × List String
  | .config e => (e.message, [])
  | .dsn e => ("could not set up logging: invalid sentry DSN: " ++ e.messages.1, e.messages.2)
  | .metrics e => (e.message, [])
  | .keys e => ("could not load token verification keys: " ++ e.message, [])
  | .setup e => (e.message, [])
  | .listen e => ("server error: " ++ e.message, [])

def text (e : StartupError) : String := Causes.describe e.messages.1 e.messages.2

end StartupError

structure Surroundings where
  file : (name : String) → ConfigFile
  environment : (name : String) → Option String
  /-- Takes an address to listen on, or tells why it cannot be had. -/
  bind : Listen.Address → Except String Unit
  /-- Installs what keeps the metrics of the process, or tells why this cannot be done. -/
  recorder : Except String Unit := .ok ()

structure Gateway where
  address : Listen.Address
  resolver : Resolver
  router : Router Handler

namespace Startup

/-- Without a settings file all settings have their defaults. -/
def load (s : Surroundings) (i : Invocation) : Except ConfigError Config :=
  match i.configFile with
  | some name => Config.ofFile (s.file name)
  | none => .ok {}

def checkDsn (config : Config) : Except DsnError Unit :=
  match config.sentryDsn with
  | some text => do
    let _ ← Dsn.parse text
    return ()
  | none => return ()

def installMetrics (s : Surroundings) : Except MetricsError Unit :=
  if MetricDefinition.requestDuration.bounds.isEmpty then .error .noBounds
  else s.recorder.mapError .unavailable

/-- The keys that tokens are checked with, unless none are asked for. -/
def keys (s : Surroundings) (i : Invocation) : Except KeySetError (Option KeySet) :=
  if i.authenticates then do
    return some (← KeySet.ofSources (s.environment KeySet.setVariable)
      (s.environment KeySet.legacyVariable))
  else return none

def router (resolver : Resolver) (space : String) : Command → Except SetupError (Router Handler)
  | .cortex _ backends => Service.cortex resolver backends space
  | .loki _ backends => Service.loki resolver backends space
  | .config backends => Service.config resolver backends space
  | .ddapi _ endpoint => Service.ddapi resolver endpoint space

def listen (s : Surroundings) (i : Invocation) : Except Listen.AddressError Listen.Address := do
  let address ← Listen.Address.ofText i.listen
  (s.bind address).mapError .unavailable
  return address

/-- All stages but the last one, in order. -/
def prepare (s : Surroundings) (i : Invocation) :
    Except StartupError (Resolver × Router Handler) := do
  let config ← (load s i).mapError .config
  config.validate.mapError .config
  (checkDsn config).mapError .dsn
  (installMetrics s).mapError .metrics
  let keys ← (keys s i).mapError .keys
  let resolver : Resolver := ⟨i.command.policy, keys, .authorizationHeader⟩
  let router ← (router resolver (config.spaceOr i.command.defaultSpace) i.command).mapError .setup
  return (resolver, router)

def start (s : Surroundings) (i : Invocation) : Except StartupError Gateway := do
  let (resolver, router) ← prepare s i
  let address ← (listen s i).mapError .listen
  return ⟨address, resolver, router⟩

/-- How the start of a program ends: help and mistakes on the command line come before all else. -/
inductive Ending
  | usage (error : CommandLine.UsageError)
  | failure (error : StartupError)
  | serving (gateway : Gateway)

def run (s : Surroundings) (args : List String) : Ending :=
  match CommandLine.read s.environment args with
  | .error e => .usage e
  | .ok i => match start s i with
    | .error e => .failure e
    | .ok gateway => .serving gateway

namespace Ending

def exitCode : Ending → Nat
  | .usage e => e.exitCode
  | .failure _ => 1
  | .serving _ => 0

def complaint? : Ending → Option String
  | .failure e => some ("error: " ++ e.text)
  | _ => none

end Ending
end Startup
end TenantGate
