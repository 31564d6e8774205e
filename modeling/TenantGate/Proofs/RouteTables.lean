import TenantGate.Proofs.Dispatch
import TenantGate.Proofs.OutboundHead
import TenantGate.Proofs.ServiceRoutes
import TenantGate.Proofs.TargetPath
/-!
# Which backend gets a path

A service that forwards requests has a table of the ways in which paths start.  A request goes to the
first entry that takes its path, and except for the paths of queries this is the only one.
-/

namespace TenantGate
namespace Service

section FirstEntry

variable {α : Type} {table : List (String × α)} {path : String}

def takes (path : String) (entry : String × α) : Bool := path.startsWith entry.1

theorem takes_iff {entry : String × α} :
    takes path entry = true ↔ entry.1.toList <+: path.toList :=
  String.startsWith_string_iff

def comparable (s t : String) : Bool := s.toList.isPrefixOf t.toList || t.toList.isPrefixOf s.toList

/-- An entry is the first one for a path if no entry before it could take such a path. -/
theorem find?_of_comparable {start : String} {entry : String × α}
    (hpath : start.toList <+: path.toList)
    (hfirst : table.find? (fun e => comparable e.1 start) = some entry) (hentry : entry.1 = start) :
    table.find? (takes path) = some entry := by
  rw [List.find?_eq_some_iff_append] at hfirst ⊢
  obtain ⟨_, front, back, rfl, hfront⟩ := hfirst
  refine ⟨takes_iff.2 (hentry ▸ hpath), front, back, rfl, fun e he => ?_⟩
  have hapart : ¬comparable e.1 start = true := by simpa using hfront e he
  have hother : ¬takes path e = true := by
    intro h
    apply hapart
    simp only [comparable, Bool.or_eq_true, List.isPrefixOf_iff_prefix]
    exact List.prefix_or_prefix_of_prefix (takes_iff.1 h) hpath
  simpa using hother

end FirstEntry

/-- A path starts in one of these ways. -/
def StartsIn (path : String) (starts : List String) : Prop :=
  ∃ start ∈ starts, start.toList <+: path.toList

instance (path : String) (starts : List String) : Decidable (StartsIn path starts) :=
  inferInstanceAs (Decidable (∃ start ∈ starts, start.toList <+: path.toList))

theorem takes_eq_false {α : Type} {path : String} {starts : List String} (h : ¬StartsIn path starts)
    {entry : String × α} (hmem : entry.1 ∈ starts) : takes path entry = false := by
  rw [Bool.eq_false_iff]
  exact fun htakes => h ⟨entry.1, hmem, takes_iff.1 htakes⟩

theorem choose_prefixRoutes (method path : String) (table : List (String × TenantProxy)) :
    Router.choose method path false (prefixRoutes table) =
      match table.find? (takes path) with
      | some e => .route ⟨.startingWith e.1, e.2.handler⟩
      | none => .unknownPath := by
  have hfind : (prefixRoutes table).find? (fun r => r.pattern.matchesRequest method path)
      = (table.find? (takes path)).map fun e => ⟨.startingWith e.1, e.2.handler⟩ := List.find?_map
  have hother : ((prefixRoutes table).any fun r => r.pattern.wantsOtherMethod method path) = false := by
    simp [prefixRoutes, RoutePattern.wantsOtherMethod]
  rw [Router.choose_eq, hfind, hother]
  cases table.find? (takes path) <;> rfl

theorem handle_prefixRoutes {space : String} {table : List (String × TenantProxy)}
    {metrics : Option Handler} {moment : Moment} {request : Request}
    (hdot : DotSegment.hasDotSegment request.uri.path = false)
    (hmetrics : request.uri.path ≠ Router.metricsPath) :
    (Router.handle ⟨space, prefixRoutes table, metrics⟩ moment request).1 =
      match table.find? (takes request.uri.path) with
      | some e => e.2.handler moment request
      | none => { response := .ofStatus 404 } := by
  have hverdict : Router.verdict ⟨space, prefixRoutes table, metrics⟩ request.method
      request.uri.path = Router.choose request.method request.uri.path false (prefixRoutes table) := by
    simp [Router.verdict, hdot, hmetrics]
  rw [Router.handle, hverdict, choose_prefixRoutes]
  cases table.find? (takes request.uri.path) <;> rfl

theorem find?_of_startsIn {ρ : Type} {roles : List (String × ρ)} {role : ρ} {starts : List String}
    (hall : ∀ start ∈ starts, roles.find? (fun e => comparable e.1 start) = some (start, role))
    {path : String} (h : StartsIn path starts) :
    ∃ start, roles.find? (takes path) = some (start, role) := by
  obtain ⟨start, hstart, hpath⟩ := h
  exact ⟨start, find?_of_comparable hpath (hall start hstart) rfl⟩

/-- A path that starts like the last of some entries, but like none before it, gets the last one. -/
theorem find?_of_last {ρ : Type} {front back : List (String × ρ)} {start path : String} {role : ρ}
    (hpath : StartsIn path [start]) (hfront : ¬StartsIn path (front.map (·.1))) :
    (front ++ (start, role) :: back).find? (takes path) = some (start, role) := by
  obtain ⟨_, hstart, hpath⟩ := hpath
  obtain rfl := List.mem_singleton.1 hstart
  refine List.find?_eq_some_iff_append.2 ⟨takes_iff.2 hpath, front, back, rfl, fun entry hentry => ?_⟩
  simp [takes_eq_false hfront (List.mem_map_of_mem hentry)]

theorem StartsIn.mono {path : String} {starts more : List String} (h : StartsIn path starts)
    (hsub : starts ⊆ more) : StartsIn path more := by
  obtain ⟨start, hstart, hpath⟩ := h
  exact ⟨start, hsub hstart, hpath⟩

theorem startsIn_append {path : String} {starts more : List String} :
    StartsIn path (starts ++ more) ↔ StartsIn path starts ∨ StartsIn path more := by
  simp only [StartsIn, List.mem_append, or_and_right, exists_or]

theorem startsIn_singleton {start path : String} :
    StartsIn path [start] ↔ ∃ rest, path = start ++ rest := by
  constructor
  · rintro ⟨_, hstart, rest, hrest⟩
    obtain rfl := List.mem_singleton.1 hstart
    exact ⟨String.ofList rest, String.toList_injective (by simp [← hrest])⟩
  · rintro ⟨rest, rfl⟩
    exact ⟨start, List.mem_singleton_self start, by simp⟩

/-- A request is handed to a proxy of the backend, which sees it under the path. -/
structure HandsTo (resolver : Resolver) (url : Url) (path : String) (moment : Moment)
    (request : Request) (reply : Reply) : Prop where
  proxied : ∃ p : TenantProxy, p.resolver = resolver ∧ p.backend = url ∧
    p.pathMap request.uri.path = path ∧ reply = p.handler moment request
  /-- Nothing is sent to any other place. -/
  only : ∀ out ∈ reply.sent, Proxy.target url (fun _ => path) request.uri = .ok out.target
  /-- With a tenant that can be named, the request is sent on. -/
  forwards : ∀ tenant target, resolver.resolve moment.now request = .ok tenant →
    Headers.isValue (Bytes.ofText tenant) = true →
    Proxy.target url (fun _ => path) request.uri = .ok target →
    ∃ head, reply.sent = [⟨request.method, target, head, request.body⟩]

theorem handsTo_handler (p : TenantProxy) (moment : Moment) (request : Request) :
    HandsTo p.resolver p.backend (p.pathMap request.uri.path) moment request
      (p.handler moment request) where
  proxied := ⟨p, rfl, rfl, rfl, rfl⟩
  only out hout := by
    obtain ⟨tenant, _, hout⟩ := TenantProxy.exists_of_mem_sent hout
    obtain ⟨target, htarget, _, rfl⟩ := TenantProxy.outbound_eq_ok_iff.1 hout
    exact htarget
  forwards tenant target hresolve ht htarget := ⟨_, TenantProxy.sent_handler hresolve ht htarget⟩

/-- Where a table sends a path. -/
inductive Place
  | backend (url : Url) (path : String)
  | nowhere

/-- What becomes of a request that is sent there. -/
def Place.Gets (resolver : Resolver) (moment : Moment) (request : Request) (reply : Reply) :
    Place → Prop
  | .backend url path => HandsTo resolver url path moment request reply
  | .nowhere => reply = { response := .ofStatus 404 }

section Roles

variable {ρ : Type} {resolver : Resolver} {space path : String} {roles : List (String × ρ)}
  {proxyOf : ρ → TenantProxy} {metrics : Option Handler} {moment : Moment} {request : Request}

/-- A table in which each role is played by a proxy. -/
def cast (proxyOf : ρ → TenantProxy) (roles : List (String × ρ)) : List (String × TenantProxy) :=
  roles.map fun e => (e.1, proxyOf e.2)

theorem find?_cast : (cast proxyOf roles).find? (takes path)
    = (roles.find? (takes path)).map fun e => (e.1, proxyOf e.2) :=
  List.find?_map

variable (hdot : DotSegment.hasDotSegment request.uri.path = false)
  (hmetrics : request.uri.path ≠ Router.metricsPath)
include hdot hmetrics

theorem gets_of_find? {start : String} {role : ρ}
    (hentry : roles.find? (takes request.uri.path) = some (start, role))
    (hresolver : (proxyOf role).resolver = resolver)
    (hpath : (proxyOf role).pathMap request.uri.path = path) :
    (Place.backend (proxyOf role).backend path).Gets resolver moment request
      (Router.handle ⟨space, prefixRoutes (cast proxyOf roles), metrics⟩ moment request).1 := by
  rw [handle_prefixRoutes hdot hmetrics, find?_cast, hentry, ← hresolver, ← hpath]
  exact handsTo_handler (proxyOf role) moment request

theorem gets_of_startsIn (role : ρ) {starts : List String}
    (hall : ∀ start ∈ starts, roles.find? (fun e => comparable e.1 start) = some (start, role))
    (hstarts : StartsIn request.uri.path starts) (hresolver : (proxyOf role).resolver = resolver)
    (hpath : (proxyOf role).pathMap request.uri.path = path) :
    (Place.backend (proxyOf role).backend path).Gets resolver moment request
      (Router.handle ⟨space, prefixRoutes (cast proxyOf roles), metrics⟩ moment request).1 := by
  obtain ⟨_, hentry⟩ := find?_of_startsIn hall hstarts
  exact gets_of_find? hdot hmetrics hentry hresolver hpath

theorem gets_nowhere (hnone : ¬StartsIn request.uri.path (roles.map (·.1))) :
    Place.nowhere.Gets resolver moment request
      (Router.handle ⟨space, prefixRoutes (cast proxyOf roles), metrics⟩ moment request).1 := by
  have hfind : roles.find? (takes request.uri.path) = none := by
    refine List.find?_eq_none.2 fun entry hentry => ?_
    simp [takes_eq_false hnone (List.mem_map_of_mem hentry)]
  rw [handle_prefixRoutes hdot hmetrics, find?_cast, hfind]
  rfl

end Roles

def distributorStarts : List String :=
  ["/api/v1/push", "/runtime_config", "/config", "/services", "/distributor/ring"]

def rulerStarts : List String := ["/ruler", "/api/v1/rules"]

def alertmanagerStarts : List String :=
  ["/alertmanager", "/multitenant_alertmanager", "/api/v1/alerts"]

/-- The starts of all paths that are not for the querier. -/
def ownStarts : List String := distributorStarts ++ (rulerStarts ++ alertmanagerStarts)

inductive CortexPlace (b : CortexBackends) (path : String) : Place → Prop
  | distributor : StartsIn path distributorStarts → CortexPlace b path (.backend b.distributor path)
  | ruler : StartsIn path rulerStarts → CortexPlace b path (.backend b.ruler path)
  | alertmanager : StartsIn path alertmanagerStarts →
      CortexPlace b path (.backend b.alertmanager path)
  | querier : StartsIn path ["/api/v1"] → ¬StartsIn path ownStarts →
      CortexPlace b path (.backend b.querier path)
  | nowhere : ¬StartsIn path ["/api/v1"] → ¬StartsIn path ownStarts → CortexPlace b path .nowhere

theorem exists_cortexPlace (b : CortexBackends) (path : String) :
    ∃ place, CortexPlace b path place := by
  by_cases hown : StartsIn path ownStarts
  · rcases startsIn_append.1 hown with h | h
    · exact ⟨_, .distributor h⟩
    · rcases startsIn_append.1 h with h | h
      · exact ⟨_, .ruler h⟩
      · exact ⟨_, .alertmanager h⟩
  · by_cases hquery : StartsIn path ["/api/v1"]
    · exact ⟨_, .querier hquery hown⟩
    · exact ⟨_, .nowhere hquery hown⟩

inductive CortexRole
  | querier
  | distributor
  | ruler
  | alertmanager
  deriving DecidableEq

def cortexRoles : List (String × CortexRole) := [
  ("/api/v1/push", .distributor),
  ("/ruler", .ruler),
  ("/api/v1/rules", .ruler),
  ("/alertmanager", .alertmanager),
  ("/multitenant_alertmanager", .alertmanager),
  ("/api/v1/alerts", .alertmanager),
  ("/api/v1", .querier),
  ("/runtime_config", .distributor),
  ("/config", .distributor),
  ("/services", .distributor),
  ("/distributor/ring", .distributor)]

/-- Only the distributor changes what clients are told. -/
def cortexProxy (resolver : Resolver) (b : CortexBackends) : CortexRole → TenantProxy
  | .querier => { resolver := resolver, backend := b.querier }
  | .distributor =>
    { resolver := resolver, backend := b.distributor, remapsPushes := !b.allowPushRetries }
  | .ruler => { resolver := resolver, backend := b.ruler }
  | .alertmanager => { resolver := resolver, backend := b.alertmanager }

inductive LokiPlace (b : LokiBackends) (path : String) : Place → Prop
  | distributor : StartsIn path ["/loki/api/v1/push"] →
      LokiPlace b path (.backend b.distributor path)
  | querier : StartsIn path ["/loki/api/v1"] → ¬StartsIn path ["/loki/api/v1/push"] →
      LokiPlace b path (.backend b.querier path)
  | nowhere : ¬StartsIn path ["/loki/api/v1"] → LokiPlace b path .nowhere

inductive LokiRole
  | querier
  | distributor
  deriving DecidableEq

def lokiRoles : List (String × LokiRole) :=
  [("/loki/api/v1/push", .distributor), ("/loki/api/v1", .querier)]

def lokiProxy (resolver : Resolver) (b : LokiBackends) : LokiRole → TenantProxy
  | .querier => { resolver := resolver, backend := b.querier }
  | .distributor => { resolver := resolver, backend := b.distributor }

/-- Two places see a path that is shorter than the client's. -/
inductive ConfigPlace (b : ConfigBackends) : String → Place → Prop
  | mappedRuler (rest : String) :
      ConfigPlace b ("/api/v1/ruler" ++ rest) (.backend b.ruler ("/ruler" ++ rest))
  | mappedAlertmanager (rest : String) :
      ConfigPlace b ("/api/v1/multitenant_alertmanager" ++ rest)
        (.backend b.alertmanager ("/multitenant_alertmanager" ++ rest))
  | ruler {path : String} : StartsIn path ["/api/v1/rules"] →
      ConfigPlace b path (.backend b.ruler path)
  | alertmanager {path : String} : StartsIn path ["/api/v1/alerts", "/api/v1/alertmanager"] →
      ConfigPlace b path (.backend b.alertmanager path)
  | nowhere {path : String} : ¬StartsIn path ["/api/v1/ruler", "/api/v1/multitenant_alertmanager",
      "/api/v1/rules", "/api/v1/alerts", "/api/v1/alertmanager"] → ConfigPlace b path .nowhere

inductive ConfigRole
  | mappedRuler
  | mappedAlertmanager
  | ruler
  | alertmanager
  deriving DecidableEq

def configRoles : List (String × ConfigRole) := [
  ("/api/v1/ruler", .mappedRuler),
  ("/api/v1/rules", .ruler),
  ("/api/v1/alerts", .alertmanager),
  ("/api/v1/alertmanager", .alertmanager),
  ("/api/v1/multitenant_alertmanager", .mappedAlertmanager)]

def configProxy (resolver : Resolver) (b : ConfigBackends) : ConfigRole → TenantProxy
  | .mappedRuler => { resolver := resolver, backend := b.ruler, pathMap := rulerMap }
  | .mappedAlertmanager =>
    { resolver := resolver, backend := b.alertmanager, pathMap := alertmanagerMap }
  | .ruler => { resolver := resolver, backend := b.ruler }
  | .alertmanager => { resolver := resolver, backend := b.alertmanager }

theorem exists_lokiPlace (b : LokiBackends) (path : String) : ∃ place, LokiPlace b path place := by
  by_cases hpush : StartsIn path ["/loki/api/v1/push"]
  · exact ⟨_, .distributor hpush⟩
  · by_cases hquery : StartsIn path ["/loki/api/v1"]
    · exact ⟨_, .querier hquery hpush⟩
    · exact ⟨_, .nowhere hquery⟩

theorem exists_configPlace (b : ConfigBackends) (path : String) :
    ∃ place, ConfigPlace b path place := by
  by_cases hstart : StartsIn path (["/api/v1/ruler"] ++ (["/api/v1/multitenant_alertmanager"] ++
      (["/api/v1/rules"] ++ ["/api/v1/alerts", "/api/v1/alertmanager"])))
  · simp only [startsIn_append] at hstart
    rcases hstart with h | h | h | h
    · obtain ⟨rest, rfl⟩ := startsIn_singleton.1 h
      exact ⟨_, .mappedRuler rest⟩
    · obtain ⟨rest, rfl⟩ := startsIn_singleton.1 h
      exact ⟨_, .mappedAlertmanager rest⟩
    · exact ⟨_, .ruler h⟩
    · exact ⟨_, .alertmanager h⟩
  · exact ⟨_, .nowhere hstart⟩

section Tables

variable {resolver : Resolver} {space : String} {router : Router Handler}
  {metrics : Option Handler} {moment : Moment} {request : Request}
  (hdot : DotSegment.hasDotSegment request.uri.path = false)
  (hmetrics : request.uri.path ≠ Router.metricsPath)
include hdot hmetrics

theorem CortexPlace.gets {b : CortexBackends} (h : cortex resolver b space = .ok router)
    {place : Place} (hplace : CortexPlace b request.uri.path place) :
    place.Gets resolver moment request
      (Router.handle { router with metrics := metrics } moment request).1 := by
  obtain rfl : router = ⟨space, prefixRoutes (cast (cortexProxy resolver b) cortexRoles), none⟩ :=
    cortex_eq_ok h
  cases hplace with
  | distributor hs =>
    exact gets_of_startsIn hdot hmetrics CortexRole.distributor (by decide) hs rfl rfl
  | ruler hs => exact gets_of_startsIn hdot hmetrics CortexRole.ruler (by decide) hs rfl rfl
  | alertmanager hs =>
    exact gets_of_startsIn hdot hmetrics CortexRole.alertmanager (by decide) hs rfl rfl
  | querier hquery hown =>
    -- A push path starts like a query, too: here the entries before the query's are ruled out.
    have hfront : (cortexRoles.take 6).map (·.1) ⊆ ownStarts := by decide
    have hentry : (cortexRoles.take 6 ++ ("/api/v1", .querier) :: cortexRoles.drop 7).find?
        (takes request.uri.path) = some ("/api/v1", .querier) :=
      find?_of_last hquery fun h => hown (h.mono hfront)
    exact gets_of_find? hdot hmetrics hentry rfl rfl
  | nowhere hquery hown =>
    have hsub : cortexRoles.map (·.1) ⊆ ["/api/v1"] ++ ownStarts := by decide
    exact gets_nowhere hdot hmetrics fun h =>
      (startsIn_append.1 (h.mono hsub)).elim hquery hown

theorem LokiPlace.gets {b : LokiBackends} (h : loki resolver b space = .ok router)
    {place : Place} (hplace : LokiPlace b request.uri.path place) :
    place.Gets resolver moment request
      (Router.handle { router with metrics := metrics } moment request).1 := by
  obtain rfl : router = ⟨space, prefixRoutes (cast (lokiProxy resolver b) lokiRoles), none⟩ :=
    loki_eq_ok h
  cases hplace with
  | distributor hs =>
    exact gets_of_startsIn hdot hmetrics LokiRole.distributor (by decide) hs rfl rfl
  | querier hquery hpush =>
    have hentry : (lokiRoles.take 1 ++ ("/loki/api/v1", LokiRole.querier) :: []).find?
        (takes request.uri.path) = some ("/loki/api/v1", .querier) :=
      find?_of_last hquery hpush
    exact gets_of_find? hdot hmetrics hentry rfl rfl
  | nowhere hquery =>
    have hpush : ¬StartsIn request.uri.path ["/loki/api/v1/push"] := by
      intro h
      obtain ⟨rest, hrest⟩ := startsIn_singleton.1 h
      exact hquery (startsIn_singleton.2 ⟨"/push" ++ rest, by simp [hrest, ← String.append_assoc]⟩)
    have hsub : lokiRoles.map (·.1) ⊆ ["/loki/api/v1/push"] ++ ["/loki/api/v1"] := by decide
    exact gets_nowhere hdot hmetrics fun h => (startsIn_append.1 (h.mono hsub)).elim hpush hquery

theorem ConfigPlace.gets {b : ConfigBackends} (h : config resolver b space = .ok router)
    {path : String} (hpath : request.uri.path = path) {place : Place}
    (hplace : ConfigPlace b path place) :
    place.Gets resolver moment request
      (Router.handle { router with metrics := metrics } moment request).1 := by
  obtain rfl : router = ⟨space, prefixRoutes (cast (configProxy resolver b) configRoles), none⟩ :=
    config_eq_ok h
  cases hplace with
  | mappedRuler rest =>
    have hs : StartsIn request.uri.path ["/api/v1/ruler"] := startsIn_singleton.2 ⟨rest, hpath⟩
    have hmap : rulerMap request.uri.path = "/ruler" ++ rest :=
      hpath ▸ Proxy.replacePrefix_append _ _ _
    exact gets_of_startsIn hdot hmetrics ConfigRole.mappedRuler (by decide) hs rfl hmap
  | mappedAlertmanager rest =>
    have hs : StartsIn request.uri.path ["/api/v1/multitenant_alertmanager"] :=
      startsIn_singleton.2 ⟨rest, hpath⟩
    have hmap : alertmanagerMap request.uri.path = "/multitenant_alertmanager" ++ rest :=
      hpath ▸ Proxy.replacePrefix_append _ _ _
    exact gets_of_startsIn hdot hmetrics ConfigRole.mappedAlertmanager (by decide) hs rfl hmap
  | ruler hs =>
    exact gets_of_startsIn hdot hmetrics ConfigRole.ruler (by decide) (hpath ▸ hs) rfl hpath
  | alertmanager hs =>
    exact gets_of_startsIn hdot hmetrics ConfigRole.alertmanager (by decide) (hpath ▸ hs) rfl hpath
  | nowhere hnone =>
    refine gets_nowhere hdot hmetrics fun hs => hnone ?_
    exact hpath ▸ hs.mono (by decide)

end Tables

/-- The end of a path, from one of its slashes on, has no dot segment that the path has not. -/
theorem hasDotSegment_of_suffix {front back : List Char} {path last : String}
    (hpath : path.toList = front ++ '/' :: back) (hlast : last.toList = '/' :: back)
    (hdot : DotSegment.hasDotSegment path = false) : DotSegment.hasDotSegment last = false := by
  have hcut : ('/' :: back).splitOn '/' = [] :: back.splitOn '/' :=
    List.splitOn_append_cons_self [] back
  rw [DotSegment.hasDotSegment, hpath, List.splitOn_append_cons_self, List.any_append,
    Bool.or_eq_false_iff] at hdot
  rw [DotSegment.hasDotSegment, hlast, hcut, List.any_cons, hdot.2]
  rfl

theorem hasDotSegment_replacePrefix (front : String) (name : List Char) {path : String}
    (hdot : DotSegment.hasDotSegment path = false) :
    DotSegment.hasDotSegment (Proxy.replacePrefix (front ++ String.ofList ('/' :: name))
      (String.ofList ('/' :: name)) path) = false := by
  rcases Proxy.replacePrefix_cases (front ++ String.ofList ('/' :: name))
    (String.ofList ('/' :: name)) path with ⟨rest, hpath, hmapped⟩ | hmapped
  · have hold : path.toList = front.toList ++ '/' :: (name ++ rest.toList) := by simp [hpath]
    have hnew : (String.ofList ('/' :: name) ++ rest).toList = '/' :: (name ++ rest.toList) := by simp
    rw [hmapped]
    exact hasDotSegment_of_suffix hold hnew hdot
  · rw [hmapped]
    exact hdot

theorem hasDotSegment_rulerMap {path : String} (hdot : DotSegment.hasDotSegment path = false) :
    DotSegment.hasDotSegment (rulerMap path) = false :=
  hasDotSegment_replacePrefix "/api/v1" "ruler".toList hdot

theorem hasDotSegment_alertmanagerMap {path : String}
    (hdot : DotSegment.hasDotSegment path = false) :
    DotSegment.hasDotSegment (alertmanagerMap path) = false :=
  hasDotSegment_replacePrefix "/api/v1" "multitenant_alertmanager".toList hdot

/-- A table has a place for a request, and the request gets there. -/
def Follows (resolver : Resolver) (moment : Moment) (request : Request) (reply : Reply)
    (table : Place → Prop) : Prop :=
  (∃ place, table place) ∧ ∀ place, table place → place.Gets resolver moment request reply

/-- Each service follows its table with all requests that it neither refuses nor keeps for the
metrics endpoint, and no mapped path is refused where the path of the client is not. -/
theorem follows_tables (resolver : Resolver) (metrics : Option Handler) (moment : Moment)
    (request : Request) (hdot : DotSegment.hasDotSegment request.uri.path = false)
    (hmetrics : request.uri.path ≠ Router.metricsPath) :
    (∀ (b : CortexBackends) (space : String) (router : Router Handler),
      cortex resolver b space = .ok router →
      Follows resolver moment request
        (Router.handle { router with metrics := metrics } moment request).1
        (CortexPlace b request.uri.path)) ∧
    (∀ (b : LokiBackends) (space : String) (router : Router Handler),
      loki resolver b space = .ok router →
      Follows resolver moment request
        (Router.handle { router with metrics := metrics } moment request).1
        (LokiPlace b request.uri.path)) ∧
    (∀ (b : ConfigBackends) (space : String) (router : Router Handler),
      config resolver b space = .ok router →
      Follows resolver moment request
        (Router.handle { router with metrics := metrics } moment request).1
        (ConfigPlace b request.uri.path)) ∧
    ∀ path, DotSegment.hasDotSegment path = false →
      DotSegment.hasDotSegment (rulerMap path) = false ∧
      DotSegment.hasDotSegment (alertmanagerMap path) = false := by
  refine ⟨fun b space router h => ?cortex, fun b space router h => ?loki,
    fun b space router h => ?config, fun path hpath => ?maps⟩
  case cortex => exact ⟨exists_cortexPlace b _, fun _ => CortexPlace.gets hdot hmetrics h⟩
  case loki => exact ⟨exists_lokiPlace b _, fun _ => LokiPlace.gets hdot hmetrics h⟩
  case config => exact ⟨exists_configPlace b _, fun _ => ConfigPlace.gets hdot hmetrics h rfl⟩
  case maps => exact ⟨hasDotSegment_rulerMap hpath, hasDotSegment_alertmanagerMap hpath⟩

namespace Sample

def backend (host : String) : Url where
  scheme := "http"
  authority := some { host := host }
  path := "/"

def resolver : Resolver := { policy := .fixed "t" }

def calm : Moment := ⟨0, fun _ => .ok { status := 200 }⟩

def endpoint : Handler := .ofResponse fun _ => { status := 200 }

def rulerRequest : Request := { uri := ⟨none, none, "/api/v1/ruler/ns", none⟩ }

def cortexBackends : CortexBackends where
  querier := backend "querier"
  distributor := backend "distributor"
  ruler := backend "ruler"
  alertmanager := backend "alertmanager"

def lokiBackends : LokiBackends := ⟨backend "querier", backend "distributor"⟩

def configBackends : ConfigBackends := ⟨backend "ruler", backend "alertmanager"⟩

def reply (router : Router Handler) : Reply :=
  (Router.handle { router with metrics := some endpoint } calm rulerRequest).1

end Sample

/-- A path that is a query where metrics are served, unknown where logs are, and mapped where rules
are. -/
theorem follows_tables_of_ruler_path :
    DotSegment.hasDotSegment Sample.rulerRequest.uri.path = false ∧
    Sample.rulerRequest.uri.path ≠ Router.metricsPath ∧
    (∃ router, cortex Sample.resolver Sample.cortexBackends "m" = .ok router ∧
      HandsTo Sample.resolver (Sample.backend "querier") "/api/v1/ruler/ns" Sample.calm
        Sample.rulerRequest (Sample.reply router)) ∧
    (∃ router, loki Sample.resolver Sample.lokiBackends "l" = .ok router ∧
      Sample.reply router = { response := .ofStatus 404 }) ∧
    ∃ router, config Sample.resolver Sample.configBackends "c" = .ok router ∧
      HandsTo Sample.resolver (Sample.backend "ruler") "/ruler/ns" Sample.calm
        Sample.rulerRequest (Sample.reply router) := by
  have hdot : DotSegment.hasDotSegment Sample.rulerRequest.uri.path = false := by decide +kernel
  have hmetrics : Sample.rulerRequest.uri.path ≠ Router.metricsPath := by decide
  obtain ⟨hcortex, hloki, hconfig, -⟩ :=
    follows_tables Sample.resolver (some Sample.endpoint) Sample.calm Sample.rulerRequest hdot hmetrics
  have hquery : CortexPlace Sample.cortexBackends "/api/v1/ruler/ns"
      (.backend (Sample.backend "querier") "/api/v1/ruler/ns") :=
    .querier (by decide) (by decide)
  have hunknown : LokiPlace Sample.lokiBackends "/api/v1/ruler/ns" .nowhere :=
    .nowhere (by decide)
  have hmapped : ConfigPlace Sample.configBackends "/api/v1/ruler/ns"
      (.backend (Sample.backend "ruler") "/ruler/ns") := .mappedRuler "/ns"
  obtain ⟨metrics, hm⟩ : ∃ router, cortex Sample.resolver Sample.cortexBackends "m" = .ok router :=
    ⟨_, rfl⟩
  obtain ⟨logs, hl⟩ : ∃ router, loki Sample.resolver Sample.lokiBackends "l" = .ok router := ⟨_, rfl⟩
  obtain ⟨rules, hr⟩ : ∃ router, config Sample.resolver Sample.configBackends "c" = .ok router :=
    ⟨_, rfl⟩
  exact ⟨hdot, hmetrics, ⟨metrics, hm, (hcortex _ _ _ hm).2 _ hquery⟩,
    ⟨logs, hl, (hloki _ _ _ hl).2 _ hunknown⟩, rules, hr, (hconfig _ _ _ hr).2 _ hmapped⟩

end Service
end TenantGate
