import TenantGate.Proofs.Results
import TenantGate.Startup
/-!
# What stands behind the routes

Every route of a service that forwards requests leads to a proxy that finds the tenant as the service
does.
-/

namespace TenantGate
namespace Service

/-- All routes lead to proxies with one resolver, which name the tenant in its own field. -/
structure Forwards (resolver : Resolver) (router : Router Handler) : Prop where
  metrics : router.metrics = none
  proxied : ∀ r ∈ router.routes, ∃ p : TenantProxy, p.resolver = resolver ∧
    p.tenantHeader = Resolver.tenantHeader ∧ r.handler = p.handler

variable {resolver : Resolver} {space : String} {router : Router Handler}

theorem proxy_eq_ok {url : Url} {p : TenantProxy} (h : proxy resolver url = .ok p) :
    p = { resolver := resolver, backend := url } := by
  simp only [proxy, TenantProxy.ofUrl, Result.mapError_eq_ok, Result.bind_eq_ok] at h
  obtain ⟨_, _, h⟩ := h
  exact (Result.pure_eq_ok.1 h).symm

theorem cortex_eq_ok {b : CortexBackends} (h : cortex resolver b space = .ok router) :
    router = ⟨space, prefixRoutes (cortexTable { resolver := resolver, backend := b.querier }
      { resolver := resolver, backend := b.distributor, remapsPushes := !b.allowPushRetries }
      { resolver := resolver, backend := b.ruler }
      { resolver := resolver, backend := b.alertmanager }), none⟩ := by
  simp only [cortex, Result.bind_eq_ok, Result.pure_eq_ok] at h
  obtain ⟨distributor, hd, ruler, hr, alertmanager, ha, querier, hq, rfl⟩ := h
  obtain rfl := proxy_eq_ok hd
  obtain rfl := proxy_eq_ok hr
  obtain rfl := proxy_eq_ok ha
  obtain rfl := proxy_eq_ok hq
  rfl

theorem loki_eq_ok {b : LokiBackends} (h : loki resolver b space = .ok router) :
    router = ⟨space, prefixRoutes [
      ("/loki/api/v1/push", { resolver := resolver, backend := b.distributor }),
      ("/loki/api/v1", { resolver := resolver, backend := b.querier })], none⟩ := by
  simp only [loki, Result.bind_eq_ok, Result.pure_eq_ok] at h
  obtain ⟨distributor, hd, querier, hq, rfl⟩ := h
  obtain rfl := proxy_eq_ok hd
  obtain rfl := proxy_eq_ok hq
  rfl

theorem config_eq_ok {b : ConfigBackends} (h : config resolver b space = .ok router) :
    router = ⟨space, prefixRoutes [
      ("/api/v1/ruler", { resolver := resolver, backend := b.ruler, pathMap := rulerMap }),
      ("/api/v1/rules", { resolver := resolver, backend := b.ruler }),
      ("/api/v1/alerts", { resolver := resolver, backend := b.alertmanager }),
      ("/api/v1/alertmanager", { resolver := resolver, backend := b.alertmanager }),
      ("/api/v1/multitenant_alertmanager",
        { resolver := resolver, backend := b.alertmanager, pathMap := alertmanagerMap })],
      none⟩ := by
  simp only [config, Result.bind_eq_ok, Result.pure_eq_ok] at h
  obtain ⟨ruler, hr, alertmanager, ha, rfl⟩ := h
  obtain rfl := proxy_eq_ok hr
  obtain rfl := proxy_eq_ok ha
  rfl

theorem forwards_prefixRoutes {table : List (String × TenantProxy)}
    (h : ∀ entry ∈ table, entry.2.resolver = resolver ∧
      entry.2.tenantHeader = Resolver.tenantHeader) :
    Forwards resolver ⟨space, prefixRoutes table, none⟩ where
  metrics := rfl
  proxied r hr := by
    obtain ⟨⟨start, p⟩, hp, rfl⟩ := List.mem_map.1 hr
    obtain ⟨hresolver, hname⟩ := h _ hp
    exact ⟨p, hresolver, hname, rfl⟩

theorem forwards_cortex {b : CortexBackends} (h : cortex resolver b space = .ok router) :
    Forwards resolver router := by
  obtain rfl := cortex_eq_ok h
  exact forwards_prefixRoutes (by simp [cortexTable])

theorem forwards_loki {b : LokiBackends} (h : loki resolver b space = .ok router) :
    Forwards resolver router := by
  obtain rfl := loki_eq_ok h
  exact forwards_prefixRoutes (by simp)

theorem forwards_config {b : ConfigBackends} (h : config resolver b space = .ok router) :
    Forwards resolver router := by
  obtain rfl := config_eq_ok h
  exact forwards_prefixRoutes (by simp)

end Service

namespace Command

/-- Metrics, logs and settings are forwarded; only documents of the agents are not. -/
def IsForwarding : Command → Prop
  | .ddapi _ _ => False
  | _ => True

theorem forwards_router {resolver : Resolver} {space : String} {router : Router Handler}
    {command : Command} (hc : command.IsForwarding)
    (h : Startup.router resolver space command = .ok router) :
    Service.Forwards resolver router := by
  cases command with
  | cortex => exact Service.forwards_cortex h
  | loki => exact Service.forwards_loki h
  | config => exact Service.forwards_config h
  | ddapi => exact absurd hc id

end Command
end TenantGate
