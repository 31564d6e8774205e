import TenantGate.Causes
import TenantGate.Http.HopByHop
import TenantGate.Proxy.PushRemap
import TenantGate.Proxy.Target
import TenantGate.Router.Dispatch
import TenantGate.Tenant.Resolver
/-!
# Forwarding requests to a backend

A request is forwarded on behalf of its tenant, whose name takes the place of any that the client
sent.  Fields of a single connection are dropped in both directions.  A protocol switch is let
through if both sides name the same protocol; then both connections are joined.
-/

namespace TenantGate

structure TenantProxy where
  resolver : Resolver
  backend : Url
  tenantHeader : HeaderName := Resolver.tenantHeader
  /-- Takes the path of a request to the path that the backend sees. -/
  pathMap : String → String := id
  /-- Whether the answers to pushes are changed. -/
  remapsPushes : Bool := false

inductive ForwardError
  | target (error : Proxy.TargetError)
  | invalidTenant
  | send (failure : SendFailure)
  | unexpectedUpgrade (requested offered : Option String)
  deriving DecidableEq, Repr

namespace ForwardError

def status : ForwardError → Status
  | .target e => e.status
  | .invalidTenant => 400
  | .send _ => 502
  | .unexpectedUpgrade _ _ => 502

def protocolText : Option String → String
  | none => "None"
  | some p => "Some(" ++ Text.quoted p ++ ")"

def message : ForwardError → String
  | .target e => e.message
  | .invalidTenant => "tenant name is not a valid header value: failed to parse header value"
  | .send f => Causes.describe f.messages.1 f.messages.2
  | .unexpectedUpgrade requested offered =>
    "backend tried to switch protocol " ++ protocolText offered ++ " when "
      ++ protocolText requested ++ " was requested"

def response (e : ForwardError) : Response := .text e.status e.message

end ForwardError

namespace TenantProxy

def ofUrl (resolver : Resolver) (backend : Url) : Except Proxy.BackendError TenantProxy := do
  Proxy.checkBackend backend
  return { resolver := resolver, backend := backend }

def forwardedHeader : HeaderName := ⟨"x-forwarded-for", by decide +kernel⟩

/-- Names the peer after those through whom the request came before. -/
def addPeer (h : Headers) : Option String → Headers
  | none => h
  | some peer =>
    let prior := (h.values forwardedHeader.text).filterMap Headers.visible?
    h.insert forwardedHeader (Bytes.ofText (", ".intercalate (prior ++ [peer])))

@[simp] theorem addPeer_none (h : Headers) : addPeer h none = h := rfl

@[simp] theorem values_addPeer (h : Headers) (peer name : String) :
    (addPeer h (some peer)).values name =
      if forwardedHeader.text = name then
        [Bytes.ofText (", ".intercalate ((h.values forwardedHeader.text).filterMap Headers.visible?
          ++ [peer]))]
      else h.values name := by
  simp [addPeer]

def outboundHeaders (p : TenantProxy) (inbound : Headers) (tenant : String)
    (peer : Option String) : Headers :=
  let kept := (HopByHop.filter inbound).remove "host"
  let kept := match HopByHop.upgrade? inbound with
    | some protocol => HopByHop.setUpgrade kept protocol
    | none => kept
  addPeer (kept.insert p.tenantHeader (Bytes.ofText tenant)) peer

def outbound (p : TenantProxy) (tenant : String) (request : Request) :
    Except ForwardError OutboundRequest := do
  let target ← (Proxy.target p.backend p.pathMap request.uri).mapError .target
  if !Headers.isValue (Bytes.ofText tenant) then throw .invalidTenant
  return ⟨request.method, target, p.outboundHeaders request.headers tenant request.peer,
    request.body⟩

def lower (b : Bytes) : Bytes := b.map fun x => if 65 ≤ x ∧ x ≤ 90 then x + 32 else x

/-- The protocol of a switch that both sides name, as the backend writes it. -/
def agreedProtocol? (requested offered : Option Bytes) : Option Bytes := do
  let r ← requested
  let o ← offered
  if lower r = lower o then some o else none

def switchReply (requested : Option Bytes) (answer : Response) (sent : List OutboundRequest) :
    Reply :=
  let offered := HopByHop.upgrade? answer.headers
  match agreedProtocol? requested offered with
  | some protocol =>
    { response := { answer with
        headers := HopByHop.setUpgrade (HopByHop.filter answer.headers) protocol }
      sent := sent
      tunnelled := true }
  | none =>
    { response := (ForwardError.unexpectedUpgrade (requested.bind Headers.visible?)
        (offered.bind Headers.visible?)).response
      sent := sent }

def relay (p : TenantProxy) (path : String) (answer : Response) : Response :=
  let r := { answer with headers := HopByHop.filter answer.headers }
  if p.remapsPushes then PushRemap.remap path r else r

def answerReply (p : TenantProxy) (request : Request) (sent : OutboundRequest) : Outcome → Reply
  | .error failure => { response := (ForwardError.send failure).response, sent := [sent] }
  | .ok answer =>
    if answer.status = 101 then switchReply (HopByHop.upgrade? request.headers) answer [sent]
    else { response := p.relay request.uri.path answer, sent := [sent] }

def forward (p : TenantProxy) (network : Network) (tenant : String) (request : Request) : Reply :=
  match p.outbound tenant request with
  | .error e => { response := e.response }
  | .ok sent => p.answerReply request sent (network [sent])

def handler (p : TenantProxy) : Handler := fun moment request =>
  match p.resolver.resolve moment.now request with
  | .error e => { response := e.response }
  | .ok tenant => p.forward moment.network tenant request

end TenantProxy
end TenantGate
