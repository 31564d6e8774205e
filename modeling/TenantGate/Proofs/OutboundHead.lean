import Mathlib.Tactic.Common
import TenantGate.Proofs.Results
import TenantGate.Proxy.Forward
/-!
# What a backend reads above a request

Every field of a forwarded request is known from the fields that the client sent, the tenant and
the peer: some names have a single value that the gateway wrote, names of a single connection are
gone, and all others stand as the client sent them.
-/

namespace TenantGate
namespace HopByHop

/-- A visible Connection value has a part, between commas, that is the name in some case. -/
def Listed (h : Headers) (name : String) : Prop :=
  ∃ value ∈ h.values "connection", ∃ text, Headers.visible? value = some text ∧
    ∃ part ∈ text.toList.splitOn ',', (Text.trim (String.ofList part)).toLower = name

instance (h : Headers) (name : String) : Decidable (Listed h name) :=
  decidable_of_iff ((h.values "connection").any fun value =>
      (Headers.visible? value).any fun text =>
        (text.toList.splitOn ',').any fun part =>
          (Text.trim (String.ofList part)).toLower == name) <| by
    simp [Listed, Option.any_eq_true]

theorem mem_tokens_iff {h : Headers} {name : String} :
    name ∈ tokens h ↔ name ≠ "" ∧ Listed h name := by
  simp only [tokens, Listed, List.mem_filter, List.mem_flatMap, List.mem_filterMap, List.mem_map,
    Bool.not_eq_true', String.isEmpty_eq_false_iff]
  constructor
  · rintro ⟨⟨text, ⟨value, hvalue, hvisible⟩, part, hpart, rfl⟩, hne⟩
    exact ⟨hne, value, hvalue, text, hvisible, part, hpart, rfl⟩
  · rintro ⟨hne, value, hvalue, text, hvisible, part, hpart, rfl⟩
    exact ⟨⟨text, ⟨value, hvalue, hvisible⟩, part, hpart, rfl⟩, hne⟩

theorem toLower_of_listed {h : Headers} {name : String} (hl : Listed h name) :
    name.toLower = name := by
  obtain ⟨_, _, _, _, _, _, rfl⟩ := hl
  exact Headers.toLower_toLower _

theorem mem_droppedNames_iff {h : Headers} {name : String}
    (hname : Headers.IsName name) :
    name ∈ droppedNames h ↔ name ∈ standardNames ∨ Listed h name := by
  have hne : name ≠ "" := by
    rintro rfl
    exact absurd hname (by decide)
  rw [droppedNames, List.mem_append, List.mem_filterMap]
  apply or_congr Iff.rfl
  constructor
  · rintro ⟨token, ht, hkept⟩
    have hl := (mem_tokens_iff.1 ht).2
    have : token.toLower = name := by
      unfold Headers.name? at hkept
      split at hkept
      · exact Option.some.inj hkept
      · simp at hkept
    rw [← this, toLower_of_listed hl]
    exact hl
  · intro hl
    exact ⟨name, mem_tokens_iff.2 ⟨hne, hl⟩, hname⟩

/-- What the filter leaves of a name is nothing, or all that the client sent. -/
theorem values_filter_eq (h : Headers) (name : String) :
    (filter h).values name =
      if name ∈ standardNames ∨ Listed h name then [] else h.values name := by
  by_cases hname : Headers.IsName name
  · simp only [values_filter, mem_droppedNames_iff hname]
  · simp [values_filter, h.values_eq_nil_of_not_isName hname]

theorem upgrade?_eq_some_iff {h : Headers} {protocol : Bytes} :
    upgrade? h = some protocol ↔ Listed h "upgrade" ∧ h.get? "upgrade" = some protocol := by
  have token : "upgrade" ∈ tokens h ↔ Listed h "upgrade" := by
    rw [mem_tokens_iff]
    exact and_iff_right (by decide)
  unfold upgrade?
  split
  · next ht => exact (and_iff_right (token.1 ht)).symm
  · next ht => simp [mt token.2 ht]

end HopByHop

namespace TenantProxy

open HopByHop

/-- The fields of a client without those of its connection, or with those of a switch that it asked
for. -/
def keptHeaders (inbound : Headers) : Headers :=
  let kept := (HopByHop.filter inbound).remove "host"
  match upgrade? inbound with
  | some protocol => setUpgrade kept protocol
  | none => kept

theorem outboundHeaders_eq (p : TenantProxy) (inbound : Headers) (tenant : String)
    (peer : Option String) :
    p.outboundHeaders inbound tenant peer
      = addPeer ((keptHeaders inbound).insert p.tenantHeader (Bytes.ofText tenant)) peer := rfl

theorem values_keptHeaders_of_switch {inbound : Headers} {protocol : Bytes}
    (h : upgrade? inbound = some protocol) :
    (keptHeaders inbound).values "connection" = [Bytes.ofText "upgrade"]
      ∧ (keptHeaders inbound).values "upgrade" = [protocol] := by
  simp [keptHeaders, h]

theorem values_keptHeaders_of_no_switch {inbound : Headers} (h : upgrade? inbound = none) :
    (keptHeaders inbound).values "connection" = [] ∧ (keptHeaders inbound).values "upgrade" = [] := by
  have gone : ∀ name ∈ standardNames, (HopByHop.filter inbound).values name = [] := by
    intro name hname
    have dropped : name ∈ droppedNames inbound := List.mem_append_left _ hname
    rw [values_filter, if_pos dropped]
  simp [keptHeaders, h, gone "connection" (by decide), gone "upgrade" (by decide)]

theorem values_keptHeaders_of_ne {inbound : Headers} {name : String} (hc : name ≠ "connection")
    (hu : name ≠ "upgrade") :
    (keptHeaders inbound).values name =
      if name = "host" then [] else (HopByHop.filter inbound).values name := by
  unfold keptHeaders
  split <;> simp only [values_setUpgrade, Headers.values_remove, if_neg hc.symm, if_neg hu.symm,
    eq_comm (a := "host")]

/-- The visible values that name those through whom the request came before. -/
def priorPeers (inbound : Headers) : List String :=
  if Listed inbound "x-forwarded-for" then []
  else (inbound.values "x-forwarded-for").filterMap Headers.visible?

def withPeer (prior : List String) (address : String) : String :=
  if prior = [] then address else ", ".intercalate prior ++ ", " ++ address

theorem withPeer_eq (prior : List String) (address : String) :
    withPeer prior address = ", ".intercalate (prior ++ [address]) := by
  unfold withPeer
  split
  · next h => simp [h]
  · next h => rw [String.intercalate_append_of_ne_nil h (by simp), String.intercalate_singleton]

/-- The names whose values the gateway writes itself. -/
def Written (peer : Option String) (name : String) : Prop :=
  name = "x-scope-orgid" ∨ name = "connection" ∨ name = "upgrade"
    ∨ name = "x-forwarded-for" ∧ peer.isSome

/-- What a backend reads above a request, name by name. -/
structure IsHead (inbound : Headers) (tenant : String) (peer : Option String) (out : Headers) :
    Prop where
  tenant : out.values "x-scope-orgid" = [Bytes.ofText tenant]
  /-- A switch that was asked for is asked for again. -/
  switched : ∀ protocol, Listed inbound "upgrade" → inbound.get? "upgrade" = some protocol →
    out.values "connection" = [Bytes.ofText "upgrade"] ∧ out.values "upgrade" = [protocol]
  stays : ¬Listed inbound "upgrade" ∨ inbound.get? "upgrade" = none →
    out.values "connection" = [] ∧ out.values "upgrade" = []
  host : out.values "host" = []
  peers : ∀ address, peer = some address →
    out.values "x-forwarded-for" = [Bytes.ofText (withPeer (priorPeers inbound) address)]
  dropped : ∀ name, ¬Written peer name → name ∈ standardNames ∨ Listed inbound name →
    out.values name = []
  kept : ∀ name, ¬Written peer name → name ≠ "host" → name ∉ standardNames →
    ¬Listed inbound name → out.values name = inbound.values name

theorem sent_answerReply (p : TenantProxy) (request : Request) (sent : OutboundRequest)
    (outcome : Outcome) : (p.answerReply request sent outcome).sent = [sent] := by
  cases outcome with
  | error failure => rfl
  | ok answer =>
    simp only [answerReply]
    split
    · unfold switchReply
      dsimp only
      split <;> rfl
    · rfl

theorem outbound_of_legal {p : TenantProxy} {tenant : String} {request : Request}
    (ht : Headers.isValue (Bytes.ofText tenant) = true) :
    p.outbound tenant request =
      ((Proxy.target p.backend p.pathMap request.uri).mapError ForwardError.target).map fun target =>
        ⟨request.method, target, p.outboundHeaders request.headers tenant request.peer,
          request.body⟩ := by
  unfold outbound
  cases Proxy.target p.backend p.pathMap request.uri <;>
    simp [ht, Except.map, bind, Except.bind, pure, Except.pure]

theorem outbound_eq_ok_iff {p : TenantProxy} {tenant : String} {request : Request}
    {out : OutboundRequest} : p.outbound tenant request = .ok out ↔
      ∃ target, Proxy.target p.backend p.pathMap request.uri = .ok target ∧
        Headers.isValue (Bytes.ofText tenant) = true ∧
        out = ⟨request.method, target, p.outboundHeaders request.headers tenant request.peer,
          request.body⟩ := by
  simp only [outbound, Result.bind_eq_ok, Result.mapError_eq_ok]
  refine exists_congr fun target => and_congr Iff.rfl ?_
  by_cases ht : Headers.isValue (Bytes.ofText tenant) = true
  · simp [ht, pure, Except.pure, eq_comm]
  · simp [ht, bind, Except.bind, throw, throwThe, MonadExceptOf.throw]

theorem sent_handler {p : TenantProxy} {moment : Moment} {request : Request} {tenant : String}
    {target : Uri} (hresolve : p.resolver.resolve moment.now request = .ok tenant)
    (ht : Headers.isValue (Bytes.ofText tenant) = true)
    (htarget : Proxy.target p.backend p.pathMap request.uri = .ok target) :
    (p.handler moment request).sent = [⟨request.method, target,
      p.outboundHeaders request.headers tenant request.peer, request.body⟩] := by
  have hout := outbound_eq_ok_iff.2 ⟨target, htarget, ht, rfl⟩
  simp only [handler, hresolve, forward, hout]
  exact sent_answerReply p request _ _

/-- Nothing is sent without a tenant that can be named and a target. -/
theorem exists_of_mem_sent {p : TenantProxy} {moment : Moment} {request : Request}
    {out : OutboundRequest} (h : out ∈ (p.handler moment request).sent) :
    ∃ tenant, p.resolver.resolve moment.now request = .ok tenant ∧
      p.outbound tenant request = .ok out := by
  unfold handler at h
  split at h
  · simp at h
  · next tenant hresolve =>
    unfold forward at h
    split at h
    · simp at h
    · next sent hsent =>
      rw [sent_answerReply, List.mem_singleton] at h
      subst h
      exact ⟨tenant, hresolve, hsent⟩

theorem values_outboundHeaders (p : TenantProxy) (inbound : Headers) (tenant : String)
    {peer : Option String} {name : String} (hx : name = "x-forwarded-for" → peer = none) :
    (p.outboundHeaders inbound tenant peer).values name =
      if name = p.tenantHeader.text then [Bytes.ofText tenant]
      else (keptHeaders inbound).values name := by
  rw [outboundHeaders_eq]
  cases peer with
  | none => simp [eq_comm]
  | some address =>
    have hne : "x-forwarded-for" ≠ name := fun h => by simpa using hx h.symm
    simp [forwardedHeader, hne, eq_comm]

theorem isHead_outboundHeaders {p : TenantProxy} (hp : p.tenantHeader.text = "x-scope-orgid")
    (inbound : Headers) (tenant : String) (peer : Option String) :
    IsHead inbound tenant peer (p.outboundHeaders inbound tenant peer) where
  tenant := by simp [values_outboundHeaders, hp]
  switched protocol hl hu := by
    simpa [values_outboundHeaders, hp] using
      values_keptHeaders_of_switch (upgrade?_eq_some_iff.2 ⟨hl, hu⟩)
  stays h := by
    have hnone : upgrade? inbound = none := by
      rw [Option.eq_none_iff_forall_ne_some]
      intro protocol hu
      obtain ⟨hl, hget⟩ := upgrade?_eq_some_iff.1 hu
      simp [hl, hget] at h
    simpa [values_outboundHeaders, hp] using values_keptHeaders_of_no_switch hnone
  host := by simp [values_outboundHeaders, hp, values_keptHeaders_of_ne]
  peers address hpeer := by
    subst hpeer
    have prior : ((keptHeaders inbound).values "x-forwarded-for").filterMap Headers.visible?
        = priorPeers inbound := by
      have unusual : "x-forwarded-for" ∉ standardNames := by decide
      rw [values_keptHeaders_of_ne (by decide) (by decide), if_neg (by decide),
        values_filter_eq, priorPeers]
      by_cases hl : Listed inbound "x-forwarded-for" <;> simp [hl, unusual]
    rw [outboundHeaders_eq, values_addPeer,
      if_pos (show forwardedHeader.text = "x-forwarded-for" from rfl), withPeer_eq, ← prior]
    simp [hp, forwardedHeader]
  dropped name hw h := by
    simp only [Written, not_or] at hw
    obtain ⟨ht, hc, hu, hx⟩ := hw
    have hx : name = "x-forwarded-for" → peer = none := by
      intro h
      simpa [h] using hx
    rw [values_outboundHeaders p inbound tenant hx, hp, if_neg ht, values_keptHeaders_of_ne hc hu,
      values_filter_eq, if_pos h]
    exact ite_self _
  kept name hw hh hs hl := by
    simp only [Written, not_or] at hw
    obtain ⟨ht, hc, hu, hx⟩ := hw
    have hx : name = "x-forwarded-for" → peer = none := by
      intro h
      simpa [h] using hx
    rw [values_outboundHeaders p inbound tenant hx, hp, if_neg ht, values_keptHeaders_of_ne hc hu,
      values_filter_eq, if_neg hh, if_neg (by simp [hs, hl])]

/-- The one request that is sent for a request with a legal tenant has exactly the head that its
fields, the tenant and the peer give. -/
theorem forward_sends_head {p : TenantProxy} (hp : p.tenantHeader.text = "x-scope-orgid")
    (network : Network) {tenant : String} (ht : Headers.isValue (Bytes.ofText tenant) = true)
    (request : Request) :
    ∃ head, IsHead request.headers tenant request.peer head ∧
      (p.forward network tenant request).sent =
        match Proxy.target p.backend p.pathMap request.uri with
        | .ok target => [⟨request.method, target, head, request.body⟩]
        | .error _ => [] := by
  refine ⟨_, isHead_outboundHeaders hp request.headers tenant request.peer, ?_⟩
  rw [forward, outbound_of_legal ht]
  cases Proxy.target p.backend p.pathMap request.uri with
  | error e => rfl
  | ok target => exact sent_answerReply p request _ _

/-- A client asks for a switch and lists a name that the gateway writes itself. -/
theorem forward_sends_head_of_switch :
    let backend : Url := { scheme := "http", authority := some { host := "backend" }, path := "/" }
    let request : Request :=
      { uri := ⟨none, none, "/api/v1/push", none⟩
        headers := ⟨[(⟨"host", by decide +kernel⟩, Bytes.ofText "gate"),
          (.connection, Bytes.ofText "Upgrade, X-Scope-OrgID"),
          (.upgrade, Bytes.ofText "websocket"), (Resolver.tenantHeader, Bytes.ofText "other"),
          (forwardedHeader, Bytes.ofText "192.0.2.1"), (.accept, Bytes.ofText "*/*")]⟩
        peer := some "192.0.2.7" }
    let p : TenantProxy := { resolver := ⟨.any, none, .authorizationHeader⟩, backend := backend }
    ∃ head, IsHead request.headers "tenant" (some "192.0.2.7") head ∧
      (p.forward (fun _ => .ok { status := 200 }) "tenant" request).sent =
        [⟨"GET", ⟨some "http", some "backend", "/api/v1/push", none⟩, head, {}⟩] := by
  intro backend request p
  have ht : Proxy.target backend id request.uri
      = .ok ⟨some "http", some "backend", "/api/v1/push", none⟩ := by
    decide +kernel
  have hp : p.tenantHeader.text = "x-scope-orgid" := rfl
  have legal : Headers.isValue (Bytes.ofText "tenant") = true := by decide
  have h := forward_sends_head hp (fun _ => .ok { status := 200 }) legal request
  rw [ht] at h
  exact h

end TenantProxy
end TenantGate
