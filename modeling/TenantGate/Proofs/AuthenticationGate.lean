import TenantGate.Proofs.BearerTokens
import TenantGate.Proofs.Dispatch
import TenantGate.Proofs.OutboundHead
import TenantGate.Proofs.ServiceRoutes
import TenantGate.Proofs.Submissions
/-!
# No backend without a tenant

With keys, a backend is spoken to only on behalf of the tenant that a good token names.  Each
handler guards its backend in this way, and a router has no other handlers.
-/

namespace TenantGate

/-- A handler refuses requests without a tenant, and sends no request that does not carry the tenant
that it found. -/
structure Guarded (resolver : Resolver) (handler : Handler) : Prop where
  refuses : ∀ moment request e, resolver.resolve moment.now request = .error e →
    (handler moment request).sent = [] ∧ (handler moment request).response.status = 401
  carries : ∀ moment request tenant, resolver.resolve moment.now request = .ok tenant →
    ∀ out ∈ (handler moment request).sent, out.headers.Carries tenant

namespace TenantProxy

theorem carries_outboundHeaders {p : TenantProxy} (hp : p.tenantHeader = Resolver.tenantHeader)
    (inbound : Headers) (tenant : String) (peer : Option String) :
    (p.outboundHeaders inbound tenant peer).Carries tenant := by
  have hne : Resolver.tenantHeader.text ≠ "x-forwarded-for" := by decide
  rw [Headers.Carries, values_outboundHeaders p inbound tenant (absurd · hne)]
  exact if_pos (congrArg HeaderName.text hp.symm)

theorem guarded_handler {p : TenantProxy} (hp : p.tenantHeader = Resolver.tenantHeader) :
    Guarded p.resolver p.handler where
  refuses moment request e h := by
    simp [handler, h, AuthError.response, Response.text]
  carries moment request tenant h out hout := by
    obtain ⟨found, hfound, hout⟩ := exists_of_mem_sent hout
    obtain rfl : tenant = found := Except.ok.inj (h.symm.trans hfound)
    obtain ⟨_, _, _, rfl⟩ := outbound_eq_ok_iff.1 hout
    exact carries_outboundHeaders hp _ _ _

end TenantProxy

namespace Ingest

theorem guarded_handler (i : Ingest) (kind : Submission) : Guarded i.resolver (i.handler kind) where
  refuses moment request e h := by
    have refused : i.accept kind moment.now request = .error (.unauthorized e) := by
      simp [accept, h, bind, Except.bind]
    rw [handler_of_refused refused]
    exact ⟨rfl, rfl⟩
  carries moment request tenant h := by
    cases ha : i.accept kind moment.now request with
    | error e =>
      rw [handler_of_refused ha]
      simp
    | ok found =>
      have admits := accept_eq_ok_iff.1 ha
      have same : tenant = found.1 := Except.ok.inj (h.symm.trans admits.resolves)
      rw [sent_handler admits, same]
      exact i.endpoint.write_carries moment.network found.1 found.2

end Ingest

namespace Service

theorem guarded_of_forwards {resolver : Resolver} {router : Router Handler}
    (h : Forwards resolver router) :
    router.metrics = none ∧ ∀ r ∈ router.routes, Guarded resolver r.handler := by
  refine ⟨h.metrics, fun r hr => ?_⟩
  obtain ⟨p, rfl, hname, heq⟩ := h.proxied r hr
  rw [heq]
  exact TenantProxy.guarded_handler hname

theorem guarded_ddapi {resolver : Resolver} {url : Url} {space : String} {router : Router Handler}
    (h : ddapi resolver url space = .ok router) :
    router.metrics = none ∧ ∀ r ∈ router.routes,
      Guarded { resolver with source := .apiKeyQuery } r.handler ∧
        ∃ kind : Submission, r.pattern = .exactly "POST" kind.path := by
  simp only [ddapi, Result.bind_eq_ok, Result.pure_eq_ok] at h
  obtain ⟨endpoint, _, rfl⟩ := h
  refine ⟨rfl, fun r hr => ?_⟩
  simp only [List.mem_cons, List.not_mem_nil, or_false] at hr
  rcases hr with rfl | rfl
  · exact ⟨Ingest.guarded_handler ⟨_, endpoint⟩ .series, _, rfl⟩
  · exact ⟨Ingest.guarded_handler ⟨_, endpoint⟩ .checkRun, _, rfl⟩

end Service

theorem Token.ne_empty_of_verify {keys : KeySet} {now : Int} {token tenant : String}
    (h : verify keys now token = .ok tenant) : tenant ≠ "" := by
  obtain ⟨_, _, _, claims, _, _, _, _, _, _, _, ht⟩ := verify_eq_ok_iff.1 h
  exact (Claims.tenant?_eq_some_iff.1 ht).2

namespace Resolver

theorem resolve_eq_ok_iff {policy : TenantPolicy} {keys : KeySet} {source : CredentialSource}
    {now : Int} {request : Request} {tenant : String} :
    resolve ⟨policy, some keys, source⟩ now request = .ok tenant ↔
      (∃ token, credential ⟨policy, some keys, source⟩ request = .ok token ∧
        Token.verify keys now token = .ok tenant) ∧
      ∀ own, policy = .fixed own → tenant = own := by
  have found : verifiedTenant ⟨policy, some keys, source⟩ keys now request = .ok tenant ↔
      ∃ token, credential ⟨policy, some keys, source⟩ request = .ok token ∧
        Token.verify keys now token = .ok tenant := by
    simp only [verifiedTenant, Result.bind_eq_ok, Result.mapError_eq_ok]
  rw [← found]
  cases policy with
  | any => simp [resolve]
  | fixed expected =>
    simp only [resolve, Result.bind_eq_ok, TenantPolicy.fixed.injEq, forall_eq']
    constructor
    · rintro ⟨name, hname, h⟩
      split at h
      · next same =>
        obtain rfl := Result.pure_eq_ok.1 h
        exact ⟨hname, same⟩
      · simp [throw, throwThe, MonadExceptOf.throw] at h
    · rintro ⟨hname, rfl⟩
      exact ⟨tenant, hname, if_pos rfl⟩

end Resolver

namespace Command

/-- Agents that submit documents send their token in the query. -/
def credential (command : Command) (request : Request) : Except AuthError String :=
  match command with
  | .ddapi _ _ => Credential.apiKey request.uri
  | _ => Credential.bearer request.headers

/-- A request is served on behalf of a tenant. -/
structure Admits (command : Command) (policy : TenantPolicy) (keys : KeySet) (now : Int)
    (request : Request) (tenant : String) : Prop where
  verified : ∃ token, command.credential request = .ok token ∧
    Token.verify keys now token = .ok tenant
  named : tenant ≠ ""
  own : ∀ own, policy = .fixed own → tenant = own

def resolver (command : Command) (policy : TenantPolicy) (keys : KeySet) : Resolver :=
  match command with
  | .ddapi _ _ => ⟨policy, some keys, .apiKeyQuery⟩
  | _ => ⟨policy, some keys, .authorizationHeader⟩

theorem admits_iff_resolve {command : Command} {policy : TenantPolicy} {keys : KeySet} {now : Int}
    {request : Request} {tenant : String} :
    command.Admits policy keys now request tenant ↔
      (command.resolver policy keys).resolve now request = .ok tenant := by
  have form : (command.resolver policy keys).resolve now request = .ok tenant ↔
      (∃ token, command.credential request = .ok token ∧ Token.verify keys now token = .ok tenant) ∧
      ∀ own, policy = .fixed own → tenant = own := by
    cases command <;> exact Resolver.resolve_eq_ok_iff
  rw [form]
  constructor
  · rintro ⟨verified, _, own⟩
    exact ⟨verified, own⟩
  · rintro ⟨⟨token, hc, ht⟩, own⟩
    exact ⟨⟨token, hc, ht⟩, Token.ne_empty_of_verify ht, own⟩

theorem guarded_router {command : Command} {policy : TenantPolicy} {keys : KeySet}
    {space : String} {router : Router Handler}
    (h : Startup.router ⟨policy, some keys, .authorizationHeader⟩ space command = .ok router) :
    router.metrics = none ∧
      ∀ r ∈ router.routes, Guarded (command.resolver policy keys) r.handler := by
  cases command with
  | cortex | loki | config =>
    refine Service.guarded_of_forwards (forwards_router ?_ h)
    trivial
  | ddapi =>
    obtain ⟨hm, hr⟩ := Service.guarded_ddapi h
    exact ⟨hm, fun r hmem => (hr r hmem).1⟩

/-- A document is posted to one of the two paths that take documents. -/
def IsPost (request : Request) : Prop :=
  request.method = "POST" ∧ ∃ kind : Submission, request.uri.path = kind.path

theorem isPost_of_takes {policy : TenantPolicy} {keys : KeySet} {space tenant : String}
    {endpoint : Url} {router : Router Handler} {request : Request}
    (h : Startup.router ⟨policy, some keys, .authorizationHeader⟩ space (.ddapi tenant endpoint)
      = .ok router)
    (ht : router.Takes request.method request.uri.path) : IsPost request := by
  obtain ⟨_, r, hr, hm⟩ := ht
  obtain ⟨_, kind, hp⟩ := (Service.guarded_ddapi h).2 r hr
  simp only [hp, RoutePattern.matchesRequest, Bool.and_eq_true, beq_iff_eq] at hm
  exact ⟨hm.2.symm, kind, hm.1.symm⟩

/-- A backend receives a request only on behalf of a tenant, and a request without one is refused. -/
theorem gate {command : Command} {name : Option String} {keys : KeySet} {space : String}
    {router : Router Handler}
    (h : Startup.router { policy := .ofName name, keys := some keys } space command = .ok router)
    (moment : Moment) (request : Request) :
    ((router.handle moment request).1.sent ≠ [] →
      router.Takes request.method request.uri.path ∧
      (∀ tenant endpoint, command = .ddapi tenant endpoint → IsPost request) ∧
      ∃ tenant, command.Admits (.ofName name) keys moment.now request tenant ∧
        ∀ out ∈ (router.handle moment request).1.sent,
          out.headers.values "x-scope-orgid" = [Bytes.ofText tenant]) ∧
    (router.Takes request.method request.uri.path →
      (¬∃ tenant, command.Admits (.ofName name) keys moment.now request tenant) →
      (router.handle moment request).1.sent = [] ∧
        (router.handle moment request).1.response.status = 401) := by
  obtain ⟨hmetrics, hguarded⟩ := guarded_router h
  simp only [admits_iff_resolve]
  constructor
  · intro hsent
    obtain ⟨r, hr⟩ := Router.exists_route_of_sent hmetrics hsent
    obtain ⟨hmem, htakes⟩ := Router.verdict_eq_route hr
    rw [Router.handle_of_route hr] at hsent ⊢
    refine ⟨htakes, ?_, ?_⟩
    · rintro tenant endpoint rfl
      exact isPost_of_takes h htakes
    · cases hres : (command.resolver (.ofName name) keys).resolve moment.now request with
      | error e => exact absurd ((hguarded r hmem).refuses moment request e hres).1 hsent
      | ok tenant => exact ⟨tenant, rfl, (hguarded r hmem).carries moment request tenant hres⟩
  · intro htakes hnone
    obtain ⟨r, hr⟩ := Router.exists_verdict_eq_route hmetrics htakes
    obtain ⟨hmem, _⟩ := Router.verdict_eq_route hr
    rw [Router.handle_of_route hr]
    cases hres : (command.resolver (.ofName name) keys).resolve moment.now request with
    | error e => exact (hguarded r hmem).refuses moment request e hres
    | ok tenant => exact absurd ⟨tenant, hres⟩ hnone

namespace Sample

def backend : Url := { scheme := "http", authority := some { host := "127.0.0.1" }, path := "/" }

def bare : Request := { method := "POST", uri := ⟨none, none, "/loki/api/v1/push", none⟩ }

def signed : Request :=
  { bare with headers := ⟨[(.authorization, Bytes.ofText ("Bearer " ++ Token.sampleToken))]⟩ }

def moment : Moment := ⟨8, fun _ => .error .refused⟩

def distributor : TenantProxy where
  resolver := ⟨.ofName (some "t"), some Token.sampleKeys, .authorizationHeader⟩
  backend := backend

theorem resolve_signed : distributor.resolver.resolve moment.now signed = .ok "t" := by
  have hverify := Token.sampleToken_verifies
  have hcredential : Credential.bearer signed.headers = .ok Token.sampleToken :=
    Credential.bearer_of_verify hverify rfl
  refine Resolver.resolve_eq_ok_iff.2 ⟨⟨_, hcredential, hverify⟩, fun own hown => ?_⟩
  cases hown
  rfl

theorem target_signed : Proxy.target backend id signed.uri
    = .ok ⟨some "http", some "127.0.0.1", "/loki/api/v1/push", none⟩ := by
  decide +kernel

end Sample

/-- A push reaches the backend with the token of the tenant, and does not without one. -/
theorem gate_of_push :
    ∃ router, Startup.router { policy := .ofName (some "t"), keys := some Token.sampleKeys } ""
        (.loki "t" ⟨Sample.backend, Sample.backend⟩) = .ok router ∧
      (router.handle Sample.moment Sample.signed).1.sent ≠ [] ∧
      (∀ out ∈ (router.handle Sample.moment Sample.signed).1.sent,
        out.headers.values "x-scope-orgid" = [Bytes.ofText "t"]) ∧
      (router.handle Sample.moment Sample.bare).1.sent = [] ∧
      (router.handle Sample.moment Sample.bare).1.response.status = 401 := by
  have built : Startup.router { policy := .ofName (some "t"), keys := some Token.sampleKeys } ""
      (.loki "t" ⟨Sample.backend, Sample.backend⟩) = .ok ⟨"",
        ⟨.startingWith "/loki/api/v1/push", Sample.distributor.handler⟩ :: _, none⟩ := rfl
  refine ⟨_, built, ?_⟩
  obtain ⟨sends, _⟩ := gate built Sample.moment Sample.signed
  obtain ⟨_, refuses⟩ := gate built Sample.moment Sample.bare
  have hdot : DotSegment.hasDotSegment "/loki/api/v1/push" = false := by decide +kernel
  have hstart : (RoutePattern.startingWith "/loki/api/v1/push").matchesRequest "POST"
      "/loki/api/v1/push" = true := by
    decide +kernel
  have hsent := TenantProxy.sent_handler Sample.resolve_signed (by decide) Sample.target_signed
  have hfirst rest := Router.handle_of_first ""
    ⟨.startingWith "/loki/api/v1/push", Sample.distributor.handler⟩ rest Sample.moment Sample.signed
    hdot hstart
  have hne rest : (Router.handle
      ⟨"", ⟨.startingWith "/loki/api/v1/push", Sample.distributor.handler⟩ :: rest, none⟩
      Sample.moment Sample.signed).1.sent ≠ [] := by
    rw [hfirst rest, hsent]
    exact List.cons_ne_nil _ _
  refine ⟨hne _, ?_, refuses ⟨hdot, _, List.mem_cons_self, hstart⟩ ?_⟩
  · obtain ⟨_, _, tenant, admits, carries⟩ := sends (hne _)
    obtain rfl := admits.own "t" rfl
    exact carries
  · rintro ⟨tenant, ⟨token, hnone, _⟩, _⟩
    cases hnone

end Command
end TenantGate
