import TenantGate.CommandLine.Options
import TenantGate.Service.Routes
/-!
# Invocations

A command names a service, and its options say where the service listens, whom it serves and which
backends it has.  The settings file may be named before and after the command.
-/

namespace TenantGate

inductive Command
  | cortex (tenant : String) (backends : Service.CortexBackends)
  | loki (tenant : String) (backends : Service.LokiBackends)
  | config (backends : Service.ConfigBackends)
  | ddapi (tenant : String) (endpoint : Url)
  deriving DecidableEq, Repr

namespace Command

def defaultSpace : Command → String
  | .cortex _ _ => Service.cortexSpace
  | .loki _ _ => Service.lokiSpace
  | .config _ => Service.configSpace
  | .ddapi _ _ => Service.ddapiSpace

/-- Rules and alerts are served for all tenants. -/
def policy : Command → TenantPolicy
  | .cortex tenant _ => .ofName (some tenant)
  | .loki tenant _ => .ofName (some tenant)
  | .config _ => .any
  | .ddapi tenant _ => .ofName (some tenant)

end Command

structure Invocation where
  configFile : Option String := none
  listen : String
  level : LogLevel := .info
  /-- Whether tokens are asked for. -/
  authenticates : Bool := true
  command : Command
  deriving DecidableEq, Repr

namespace CommandLine

inductive CommandName
  | cortex
  | loki
  | config
  | ddapi
  deriving DecidableEq, Repr

namespace CommandName

def ofText? : String → Option CommandName
  | "cortex" => some .cortex
  | "loki" => some .loki
  | "config" => some .config
  | "ddapi" => some .ddapi
  | _ => none

def helpSpec : OptionSpec := ⟨"help", .help, none⟩

def configFileSpec : OptionSpec := ⟨"config-file", .path, none⟩

def commonSpecs : List OptionSpec := [
  configFileSpec,
  helpSpec,
  ⟨"listen", .text, none⟩,
  ⟨"loglevel", .level, none⟩,
  ⟨"disable-api-authn", .switch, none⟩]

def tenantSpec : OptionSpec := ⟨"tenantname", .text, none⟩

def specs : CommandName → List OptionSpec
  | .cortex => commonSpecs ++ [
    tenantSpec,
    ⟨"cortex-querier-url", .url, none⟩,
    ⟨"cortex-distributor-url", .url, none⟩,
    ⟨"cortex-ruler-url", .url, none⟩,
    ⟨"cortex-alertmanager-url", .url, none⟩,
    ⟨"allow-push-retries", .switch, none⟩]
  | .loki => commonSpecs ++ [
    tenantSpec,
    ⟨"loki-querier-url", .url, none⟩,
    ⟨"loki-distributor-url", .url, none⟩]
  | .config => commonSpecs ++ [
    ⟨"cortex-ruler-url", .url, some "CORTEX_RULER_ENDPOINT"⟩,
    ⟨"cortex-alertmanager-url", .url, some "CORTEX_ALERTMANAGER_ENDPOINT"⟩]
  | .ddapi => commonSpecs ++ [
    tenantSpec,
    ⟨"prom-remote-write-url", .url, none⟩]

end CommandName

/-- The backend that stands in for one that is not named. -/
def localhost : Url := { scheme := "http", authority := some { host := "localhost" }, path := "/" }

example : (Url.parse "http://localhost").toOption = some localhost := by
  decide +kernel

def commandOf (values : Values) : CommandName → Except UsageError Command
  | .cortex => do
    let querier ← Values.required (values.url? "cortex-querier-url")
    let distributor ← Values.required (values.url? "cortex-distributor-url")
    let ruler ← Values.required (values.url? "cortex-ruler-url")
    let alertmanager ← Values.required (values.url? "cortex-alertmanager-url")
    return .cortex ((values.text? "tenantname").getD "")
      ⟨querier, distributor, ruler, alertmanager, values.has "allow-push-retries"⟩
  | .loki => do
    let querier ← Values.required (values.url? "loki-querier-url")
    let distributor ← Values.required (values.url? "loki-distributor-url")
    return .loki ((values.text? "tenantname").getD "") ⟨querier, distributor⟩
  | .config => .ok (.config ⟨(values.url? "cortex-ruler-url").getD localhost,
      (values.url? "cortex-alertmanager-url").getD localhost⟩)
  | .ddapi => do
    let endpoint ← Values.required (values.url? "prom-remote-write-url")
    return .ddapi ((values.text? "tenantname").getD "") endpoint

def readCommand (environment : String → Option String) (name : CommandName) (args : List String) :
    Except UsageError Invocation := do
  let values ← readOptions name.specs {} args
  let values ← values.complete environment name.specs
  let listen ← Values.required (values.text? "listen")
  return {
    configFile := values.text? CommandName.configFileSpec.name
    listen := listen
    level := (values.level? "loglevel").getD .info
    authenticates := !values.has "disable-api-authn"
    command := ← commandOf values name }

def helpWord : String := "help"

def isCommandWord (s : String) : Bool := (CommandName.ofText? s).isSome || s == helpWord

/-- Help on a command, which has no commands of its own. -/
def helpOn : List String → UsageError
  | [] => .help
  | [name] => if isCommandWord name then .help else .unknownCommand
  | _ => .unknownCommand

def withoutCommand (p : Progress) : Except UsageError Invocation := do
  let values ← p.settle
  if values.isEmpty then throw .nothingGiven else throw .missingCommand

/-- Options before the command are looked at after those of the command. -/
def readFrom (environment : String → Option String) (p : Progress) :
    List String → Except UsageError Invocation
  | [] => withoutCommand p
  | arg :: args =>
    let specs := [CommandName.configFileSpec, CommandName.helpSpec]
    match Argument.ofText arg with
    | .endOfOptions => match args with
      | [] => withoutCommand p
      | arg :: _ => .error (if isCommandWord arg then .unknownArgument else .unknownCommand)
    | .long name value => do readFrom environment (← p.long specs name value) args
    | .short letter => do readFrom environment (← p.short letter) args
    | .plain text =>
      if p.awaitsValue then readFrom environment (p.giveValue text) args
      else if text = helpWord then .error (helpOn args)
      else match CommandName.ofText? text with
        | none => .error .unknownCommand
        | some name => do
          let invocation ← readCommand environment name args
          let values ← p.settle
          let before := values.text? CommandName.configFileSpec.name
          return { invocation with configFile := invocation.configFile.or before }

def read (environment : String → Option String) (args : List String) : Except UsageError Invocation :=
  readFrom environment {} args

end CommandLine
end TenantGate
