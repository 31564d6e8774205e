import TenantGate.Ingest.Handler
import TenantGate.Proxy.Forward
/-!
# The routes of each service

Three services forward requests to backends, each path to the backend that serves it, and one takes
submissions.  Where one path starts another, the longer one comes first.
-/

namespace TenantGate

inductive SetupError
  | backend (error : Proxy.BackendError)
  | endpoint (error : EndpointError)
  deriving DecidableEq, Repr

def SetupError.message : SetupError → String
  | .backend e => "invalid upstream: " ++ e.message
  | .endpoint e => e.message

namespace Service

/-- Routes for all paths that start in one of the given ways, in this order. -/
def prefixRoutes (table : List (String × TenantProxy)) : List (Route Handler) :=
  table.map fun (start, proxy) => ⟨.startingWith start, proxy.handler⟩

def proxy (resolver : Resolver) (url : Url) : Except SetupError TenantProxy :=
  (TenantProxy.ofUrl resolver url).mapError .backend

structure CortexBackends where
  querier : Url
  distributor : Url
  ruler : Url
  alertmanager : Url
  /-- Whether the answers to pushes stay as they are. -/
  allowPushRetries : Bool := false
  deriving DecidableEq, Repr

def cortexSpace : String := "cortex_api_proxy"

def cortexTable (querier distributor ruler alertmanager : TenantProxy) :
    List (String × TenantProxy) := [
  ("/api/v1/push", distributor),
  ("/ruler", ruler),
  ("/api/v1/rules", ruler),
  ("/alertmanager", alertmanager),
  ("/multitenant_alertmanager", alertmanager),
  ("/api/v1/alerts", alertmanager),
  ("/api/v1", querier),
  ("/runtime_config", distributor),
  ("/config", distributor),
  ("/services", distributor),
  ("/distributor/ring", distributor)]

def cortex (resolver : Resolver) (b : CortexBackends) (space : String) :
    Except SetupError (Router Handler) := do
  let distributor ← proxy resolver b.distributor
  let ruler ← proxy resolver b.ruler
  let alertmanager ← proxy resolver b.alertmanager
  let querier ← proxy resolver b.querier
  let distributor := { distributor with remapsPushes := !b.allowPushRetries }
  return ⟨space, prefixRoutes (cortexTable querier distributor ruler alertmanager), none⟩

structure LokiBackends where
  querier : Url
  distributor : Url
  deriving DecidableEq, Repr

def lokiSpace : String := "loki_api_proxy"

def loki (resolver : Resolver) (b : LokiBackends) (space : String) :
    Except SetupError (Router Handler) := do
  let distributor ← proxy resolver b.distributor
  let querier ← proxy resolver b.querier
  return ⟨space,
    prefixRoutes [("/loki/api/v1/push", distributor), ("/loki/api/v1", querier)], none⟩

structure ConfigBackends where
  ruler : Url
  alertmanager : Url
  deriving DecidableEq, Repr

def configSpace : String := "config_api_proxy"

def rulerMap : String → String := Proxy.replacePrefix "/api/v1/ruler" "/ruler"

def alertmanagerMap : String → String :=
  Proxy.replacePrefix "/api/v1/multitenant_alertmanager" "/multitenant_alertmanager"

def config (resolver : Resolver) (b : ConfigBackends) (space : String) :
    Except SetupError (Router Handler) := do
  let ruler ← proxy resolver b.ruler
  let alertmanager ← proxy resolver b.alertmanager
  return ⟨space, prefixRoutes [
    ("/api/v1/ruler", { ruler with pathMap := rulerMap }),
    ("/api/v1/rules", ruler),
    ("/api/v1/alerts", alertmanager),
    ("/api/v1/alertmanager", alertmanager),
    ("/api/v1/multitenant_alertmanager", { alertmanager with pathMap := alertmanagerMap })], none⟩

def ddapiSpace : String := "ddapi_proxy"

/-- The agents that submit documents send their token in the query. -/
def ddapi (resolver : Resolver) (url : Url) (space : String) :
    Except SetupError (Router Handler) := do
  let endpoint ← (RemoteWrite.ofUrl url).mapError .endpoint
  let ingest : Ingest := ⟨{ resolver with source := .apiKeyQuery }, endpoint⟩
  let route := fun (kind : Submission) =>
    Route.mk (.exactly "POST" kind.path) (ingest.handler kind)
  return ⟨space, [route .series, route .checkRun], none⟩

end Service
end TenantGate
