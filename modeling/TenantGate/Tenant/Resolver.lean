import TenantGate.Tenant.Credential
/-!
# The tenant of a request

A service belongs to one tenant or serves all of them.  With keys, the tenant of a request is the
one that its token was issued for; without keys, the service's own tenant or the one that the
request names.
-/

namespace TenantGate

inductive TenantPolicy
  | fixed (tenant : String)
  | any
  deriving DecidableEq, Repr

/-- An empty name means any tenant. -/
def TenantPolicy.ofName : Option String → TenantPolicy
  | none => .any
  | some name => if name = "" then .any else .fixed name

inductive CredentialSource
  | authorizationHeader
  | apiKeyQuery
  deriving DecidableEq, Repr

structure Resolver where
  policy : TenantPolicy
  /-- The keys that tokens are checked with; without them no token is asked for. -/
  keys : Option KeySet := none
  source : CredentialSource := .authorizationHeader
  deriving DecidableEq, Repr

namespace Resolver

def tenantHeader : HeaderName := ⟨"x-scope-orgid", by decide +kernel⟩

def credential (r : Resolver) (request : Request) : Except AuthError String :=
  match r.source with
  | .authorizationHeader => Credential.bearer request.headers
  | .apiKeyQuery => Credential.apiKey request.uri

def verifiedTenant (r : Resolver) (keys : KeySet) (now : Int) (request : Request) :
    Except AuthError String := do
  (Token.verify keys now (← r.credential request)).mapError .badToken

/-- The tenant that a request names itself. -/
def namedTenant (headers : Headers) : Except AuthError String :=
  match (headers.get? tenantHeader.text).bind Headers.visible? with
  | none => .error .missingTenantHeader
  | some tenant => if tenant = "" then .error .missingTenantHeader else .ok tenant

def resolve (r : Resolver) (now : Int) (request : Request) : Except AuthError String :=
  match r.policy, r.keys with
  | .fixed expected, some keys => do
    let tenant ← r.verifiedTenant keys now request
    if tenant = expected then return tenant else throw (.wrongTenant tenant)
  | .fixed expected, none => .ok expected
  | .any, some keys => r.verifiedTenant keys now request
  | .any, none => namedTenant request.headers

end Resolver
end TenantGate
