import TenantGate.Proofs.AuthenticationGate
/-!
# Tenants that clients name

With keys or a tenant of its own, a service does not see which tenants a client names: two requests
that differ in nothing else are resolved, forwarded and answered alike.
-/

namespace TenantGate

namespace Headers

def Same (h k : Headers) : Prop := ∀ name, h.values name = k.values name

/-- The same values of every name but one. -/
def SameBut (excepted : String) (h k : Headers) : Prop :=
  ∀ name, name ≠ excepted → h.values name = k.values name

namespace SameBut

variable {excepted : String} {h k : Headers}

theorem get?_eq (hs : SameBut excepted h k) {name : String} (hn : name ≠ excepted) :
    h.get? name = k.get? name := by
  rw [get?, get?, hs name hn]

theorem remove (hs : SameBut excepted h k) (name : String) :
    SameBut excepted (h.remove name) (k.remove name) := by
  intro other ho
  simp only [values_remove, hs other ho]

theorem insert (hs : SameBut excepted h k) (name : HeaderName) (value : Bytes) :
    SameBut excepted (h.insert name value) (k.insert name value) := by
  intro other ho
  simp only [values_insert, hs other ho]

/-- Writing the one name that may differ takes the difference away. -/
theorem same_insert {name : HeaderName} (hs : SameBut name.text h k) (value : Bytes) :
    Same (h.insert name value) (k.insert name value) := by
  intro other
  by_cases ho : other = name.text
  · simp [ho]
  · simp only [values_insert, hs other ho]

end SameBut

theorem Same.insert {h k : Headers} (hs : Same h k) (name : HeaderName) (value : Bytes) :
    Same (h.insert name value) (k.insert name value) := by
  intro other
  simp only [values_insert, hs other]

end Headers

/-- Requests that differ at most in the tenants that they name. -/
structure Request.SameButTenant (r s : Request) : Prop where
  method : r.method = s.method
  uri : r.uri = s.uri
  body : r.body = s.body
  peer : r.peer = s.peer
  headers : Headers.SameBut Resolver.tenantHeader.text r.headers s.headers

/-- Requests that a backend cannot tell apart: the order of different names is not part of a
message. -/
structure OutboundRequest.Same (a b : OutboundRequest) : Prop where
  method : a.method = b.method
  target : a.target = b.target
  body : a.body = b.body
  headers : Headers.Same a.headers b.headers

/-- The same requests are answered in the same way. -/
def Network.AnswersRequests (network : Network) : Prop :=
  ∀ sent sent', List.Forall₂ OutboundRequest.Same sent sent' → network sent = network sent'

namespace Resolver

variable {r : Resolver} {request request' : Request}

theorem credential_congr (huri : request.uri = request'.uri)
    (hauthorization : request.headers.get? "authorization" = request'.headers.get? "authorization") :
    r.credential request = r.credential request' := by
  unfold credential
  cases r.source with
  | authorizationHeader => simp only [Credential.bearer, hauthorization]
  | apiKeyQuery => simp only [huri]

theorem credential_eq (hs : request.SameButTenant request') :
    r.credential request = r.credential request' :=
  credential_congr hs.uri (hs.headers.get?_eq (by decide))

theorem verifiedTenant_eq (hs : request.SameButTenant request') (keys : KeySet) (now : Int) :
    r.verifiedTenant keys now request = r.verifiedTenant keys now request' := by
  simp only [verifiedTenant, credential_eq hs]

/-- The tenant does not depend on what clients name. -/
def IsDecided (r : Resolver) : Prop := (∃ own, r.policy = .fixed own) ∨ r.keys.isSome = true

theorem resolve_eq (hr : r.IsDecided) (hs : request.SameButTenant request') (now : Int) :
    r.resolve now request = r.resolve now request' := by
  unfold resolve
  cases hp : r.policy with
  | fixed own =>
    cases r.keys with
    | none => rfl
    | some keys => simp only [verifiedTenant_eq hs]
  | any =>
    cases hk : r.keys with
    | none => simp [IsDecided, hp, hk] at hr
    | some keys => exact verifiedTenant_eq hs keys now

end Resolver

namespace HopByHop

variable {excepted : String} {h k : Headers}

theorem tokens_eq (hs : Headers.SameBut excepted h k) (hc : "connection" ≠ excepted) :
    tokens h = tokens k := by
  simp only [tokens, hs "connection" hc]

theorem upgrade?_eq (hs : Headers.SameBut excepted h k) (hc : "connection" ≠ excepted)
    (hu : "upgrade" ≠ excepted) : upgrade? h = upgrade? k := by
  simp only [upgrade?, tokens_eq hs hc, hs.get?_eq hu]

/-- Which names are dropped is known from the Connection values alone. -/
theorem sameBut_filter (hs : Headers.SameBut excepted h k) (hc : "connection" ≠ excepted) :
    Headers.SameBut excepted (filter h) (filter k) := by
  intro name hn
  have dropped : droppedNames h = droppedNames k := by simp only [droppedNames, tokens_eq hs hc]
  rw [values_filter, values_filter, dropped, hs name hn]

theorem sameBut_setUpgrade (hs : Headers.SameBut excepted h k) (protocol : Bytes) :
    Headers.SameBut excepted (setUpgrade h protocol) (setUpgrade k protocol) :=
  (hs.insert _ _).insert _ _

end HopByHop

namespace TenantProxy

variable {p : TenantProxy} {h k : Headers} {r s : Request}

theorem sameBut_keptHeaders (hs : Headers.SameBut Resolver.tenantHeader.text h k) :
    Headers.SameBut Resolver.tenantHeader.text (keptHeaders h) (keptHeaders k) := by
  have kept := (HopByHop.sameBut_filter hs (by decide)).remove "host"
  unfold keptHeaders
  rw [HopByHop.upgrade?_eq hs (by decide) (by decide)]
  cases HopByHop.upgrade? k with
  | none => exact kept
  | some protocol => exact HopByHop.sameBut_setUpgrade kept protocol

theorem same_addPeer (hs : Headers.Same h k) (peer : Option String) :
    Headers.Same (addPeer h peer) (addPeer k peer) := by
  cases peer with
  | none => exact hs
  | some address =>
    simp only [addPeer, hs forwardedHeader.text]
    exact hs.insert _ _

/-- The tenant's field is written over, and what is written after it does not read it. -/
theorem same_outboundHeaders (hp : p.tenantHeader = Resolver.tenantHeader)
    (hs : Headers.SameBut Resolver.tenantHeader.text h k) (tenant : String) (peer : Option String) :
    Headers.Same (p.outboundHeaders h tenant peer) (p.outboundHeaders k tenant peer) := by
  rw [outboundHeaders_eq, outboundHeaders_eq, hp]
  exact same_addPeer ((sameBut_keptHeaders hs).same_insert _) peer

theorem same_outbound (hp : p.tenantHeader = Resolver.tenantHeader) (hs : r.SameButTenant s)
    (tenant : String) :
    (∃ e, p.outbound tenant r = .error e ∧ p.outbound tenant s = .error e) ∨
      ∃ out out', p.outbound tenant r = .ok out ∧ p.outbound tenant s = .ok out' ∧
        OutboundRequest.Same out out' := by
  unfold outbound
  rw [hs.uri]
  cases Proxy.target p.backend p.pathMap s.uri with
  | error e => exact .inl ⟨.target e, rfl, rfl⟩
  | ok target =>
    by_cases ht : Headers.isValue (Bytes.ofText tenant) = true
    · simp only [ht]
      exact .inr ⟨_, _, rfl, rfl, hs.method, rfl, hs.body,
        hs.peer ▸ same_outboundHeaders hp hs.headers tenant r.peer⟩
    · simp only [ht]
      exact .inl ⟨.invalidTenant, rfl, rfl⟩

theorem answerReply_eq (hs : r.SameButTenant s) (out out' : OutboundRequest) (outcome : Outcome) :
    (p.answerReply r out outcome).response = (p.answerReply s out' outcome).response ∧
      (p.answerReply r out outcome).tunnelled = (p.answerReply s out' outcome).tunnelled := by
  cases outcome with
  | error failure => exact ⟨rfl, rfl⟩
  | ok answer =>
    have asked : HopByHop.upgrade? r.headers = HopByHop.upgrade? s.headers :=
      HopByHop.upgrade?_eq hs.headers (by decide) (by decide)
    simp only [answerReply, asked, hs.uri]
    split
    · unfold switchReply
      dsimp only
      split <;> exact ⟨rfl, rfl⟩
    · exact ⟨rfl, rfl⟩

end TenantProxy

/-- A handler that does not see which tenants a client names. -/
structure Blind (handler : Handler) : Prop where
  sends : ∀ moment (r s : Request), r.SameButTenant s →
    List.Forall₂ OutboundRequest.Same (handler moment r).sent (handler moment s).sent
  answers : ∀ moment (r s : Request), moment.network.AnswersRequests → r.SameButTenant s →
    (handler moment r).response = (handler moment s).response ∧
      (handler moment r).tunnelled = (handler moment s).tunnelled

theorem TenantProxy.blind_handler {p : TenantProxy} (hp : p.tenantHeader = Resolver.tenantHeader)
    (hr : p.resolver.IsDecided) : Blind p.handler where
  sends moment r s hs := by
    unfold handler
    rw [Resolver.resolve_eq hr hs]
    cases p.resolver.resolve moment.now s with
    | error e => exact .nil
    | ok tenant =>
      rcases same_outbound hp hs tenant with ⟨e, hr, hs⟩ | ⟨out, out', hr, hs, same⟩
      · simp only [forward, hr, hs]
        exact .nil
      · simp only [forward, hr, hs, sent_answerReply]
        exact .cons same .nil
  answers moment r s hn hs := by
    unfold handler
    rw [Resolver.resolve_eq hr hs]
    cases p.resolver.resolve moment.now s with
    | error e => exact ⟨rfl, rfl⟩
    | ok tenant =>
      rcases same_outbound hp hs tenant with ⟨e, hr, hs⟩ | ⟨out, out', hout, hout', same⟩
      · simp only [forward, hr, hs, and_self]
      · have outcome : moment.network [out] = moment.network [out'] := hn _ _ (.cons same .nil)
        simp only [forward, hout, hout', outcome]
        exact answerReply_eq hs out out' _

theorem Router.blind_handle {router : Router Handler} (hmetrics : router.metrics = none)
    (h : ∀ route ∈ router.routes, Blind route.handler) : Blind fun m r => (router.handle m r).1 where
  sends moment r s hs := by
    unfold handle
    rw [hs.method, hs.uri]
    cases hv : router.verdict s.method s.uri.path with
    | dotSegment | wrongMethod | unknownPath => exact .nil
    | metrics handler => exact absurd hv (verdict_ne_metrics hmetrics)
    | route found => exact (h found (verdict_eq_route hv).1).sends moment r s hs
  answers moment r s hn hs := by
    unfold handle
    rw [hs.method, hs.uri]
    cases hv : router.verdict s.method s.uri.path with
    | dotSegment | wrongMethod | unknownPath => exact ⟨rfl, rfl⟩
    | metrics handler => exact absurd hv (verdict_ne_metrics hmetrics)
    | route found => exact (h found (verdict_eq_route hv).1).answers moment r s hn hs

theorem Service.Forwards.blind {resolver : Resolver} {router : Router Handler}
    (h : Forwards resolver router) (hr : resolver.IsDecided) :
    Blind fun m r => (router.handle m r).1 := by
  refine Router.blind_handle h.metrics fun route hroute => ?_
  obtain ⟨p, rfl, hname, heq⟩ := h.proxied route hroute
  rw [heq]
  exact p.blind_handler hname hr

namespace Command

/-- Two requests that differ only in the tenants that they name are resolved alike and forwarded
alike, and their clients get the same response. -/
theorem blind_to_named_tenants {resolver : Resolver} (hr : resolver.IsDecided)
    {command : Command} (hc : command.IsForwarding) {space : String} {router : Router Handler}
    (h : Startup.router resolver space command = .ok router) {r s : Request}
    (hs : r.SameButTenant s) (moment : Moment) :
    resolver.resolve moment.now r = resolver.resolve moment.now s ∧
      List.Forall₂ OutboundRequest.Same (router.handle moment r).1.sent
        (router.handle moment s).1.sent ∧
      (moment.network.AnswersRequests →
        (router.handle moment r).1.response = (router.handle moment s).1.response ∧
          (router.handle moment r).1.tunnelled = (router.handle moment s).1.tunnelled) := by
  have blind := (forwards_router hc h).blind hr
  exact ⟨Resolver.resolve_eq hr hs moment.now, blind.sends moment r s hs,
    fun hn => blind.answers moment r s hn hs⟩

namespace Sample

def listing : Request :=
  { bare with headers := ⟨[(.connection, Bytes.ofText "X-Scope-OrgID")]⟩ }

def naming : Request :=
  { bare with headers := ⟨[(Resolver.tenantHeader, Bytes.ofText "a"),
      (.connection, Bytes.ofText "X-Scope-OrgID"), (Resolver.tenantHeader, Bytes.ofText "b")]⟩ }

def selective : Network := fun sent =>
  .ok { status := if sent.all fun out => out.headers.values "x-scope-orgid" == [Bytes.ofText "t"]
    then 204 else 500 }

theorem answersRequests_selective : selective.AnswersRequests := by
  intro sent sent' h
  have tenants : (sent.all fun out => out.headers.values "x-scope-orgid" == [Bytes.ofText "t"])
      = sent'.all fun out => out.headers.values "x-scope-orgid" == [Bytes.ofText "t"] := by
    induction h with
    | nil => rfl
    | cons same _ ih => simp only [List.all_cons, same.headers "x-scope-orgid", ih]
  simp only [selective, tenants]

theorem sameButTenant_naming : listing.SameButTenant naming where
  method := rfl
  uri := rfl
  body := rfl
  peer := rfl
  headers := by
    intro name hn
    have other : ¬Resolver.tenantHeader.text = name := fun h => hn h.symm
    by_cases hc : "connection" = name <;> simp [listing, naming, Headers.values, other, hc]

end Sample

/-- A push is forwarded for the service's own tenant, whichever tenants it names. -/
theorem blind_to_named_tenants_of_push :
    ∃ router, Startup.router { policy := .fixed "t" } "" (.loki "t" ⟨Sample.backend, Sample.backend⟩)
        = .ok router ∧
      (router.handle ⟨8, Sample.selective⟩ Sample.listing).1.sent ≠ [] ∧
      List.Forall₂ OutboundRequest.Same (router.handle ⟨8, Sample.selective⟩ Sample.listing).1.sent
        (router.handle ⟨8, Sample.selective⟩ Sample.naming).1.sent ∧
      (router.handle ⟨8, Sample.selective⟩ Sample.listing).1.response
        = (router.handle ⟨8, Sample.selective⟩ Sample.naming).1.response := by
  let p : TenantProxy := { resolver := { policy := .fixed "t" }, backend := Sample.backend }
  have built : Startup.router { policy := .fixed "t" } ""
      (.loki "t" ⟨Sample.backend, Sample.backend⟩) = .ok ⟨"",
        ⟨.startingWith "/loki/api/v1/push", p.handler⟩ :: _, none⟩ := rfl
  refine ⟨_, built, ?_⟩
  obtain ⟨_, sends, answers⟩ := blind_to_named_tenants (.inl ⟨"t", rfl⟩) (by trivial) built
    Sample.sameButTenant_naming ⟨8, Sample.selective⟩
  refine ⟨?_, sends, (answers Sample.answersRequests_selective).1⟩
  have hdot : DotSegment.hasDotSegment "/loki/api/v1/push" = false := by decide +kernel
  have hstart : (RoutePattern.startingWith "/loki/api/v1/push").matchesRequest "POST"
      "/loki/api/v1/push" = true := by
    decide +kernel
  have hsent : (p.handler ⟨8, Sample.selective⟩ Sample.listing).sent = [_] :=
    TenantProxy.sent_handler rfl (by decide) Sample.target_signed
  rw [Router.handle_of_first "" _ _ _ _ hdot hstart, hsent]
  exact List.cons_ne_nil _ _

end Command
end TenantGate
