import TenantGate.Http.Message
import TenantGate.Text.Form
import TenantGate.Text.Parts
import TenantGate.Token.Verify
/-!
# Credentials in requests

A token stands in the Authorization header or in the query.  What a client is told about a request
without a valid token does not depend on what is wrong with the token.
-/

namespace TenantGate

inductive AuthError
  | missingAuthorizationHeader
  | malformedAuthorizationHeader
  | missingApiKey
  | badToken (reason : TokenError)
  | wrongTenant (tenant : String)
  | missingTenantHeader
  deriving DecidableEq, Repr

namespace AuthError

def message : AuthError → String
  | .missingAuthorizationHeader => "Authorization header missing"
  | .malformedAuthorizationHeader =>
    "Authorization header format invalid. Expecting \x60Authorization: Bearer <AUTHTOKEN>\x60"
  | .missingApiKey => "DD API key missing (api_key URL query parameter)"
  | .badToken _ => "bad authentication token"
  | .wrongTenant _ => "bad authentication token"
  | .missingTenantHeader => "missing test X-Scope-OrgID header specifying tenant"

def response (e : AuthError) : Response := .text 401 e.message

end AuthError

namespace Credential

def bearerMark : List Char := "Bearer ".toList

/-- The second part of the first Authorization value, which has two parts around the mark. -/
def bearer (headers : Headers) : Except AuthError String :=
  match headers.get? "authorization" with
  | none => .error .missingAuthorizationHeader
  | some [] => .error .missingAuthorizationHeader
  | some value =>
    match Headers.visible? value with
    | none => .error .malformedAuthorizationHeader
    | some s =>
      match Text.partsAround bearerMark s.toList with
      | [_, token] => .ok (String.ofList token)
      | _ => .error .malformedAuthorizationHeader

def apiKey (uri : Uri) : Except AuthError String :=
  match uri.query.bind fun query => Form.lookup? query "api_key" with
  | none => .error .missingApiKey
  | some key => if key = "" then .error .missingApiKey else .ok key

end Credential
end TenantGate
