import TenantGate.Proxy.DotSegment
import TenantGate.Http.Status
import TenantGate.Http.Uri
import TenantGate.Url.Parse
/-!
# Where a request is forwarded to

A backend is known by a URL.  A request for a path goes to the same path below the path of that
URL, with the queries of both; scheme and authority are those of the URL.  The path may be mapped
to another one first.
-/

namespace TenantGate
namespace Proxy

/-- The base and the path with one slash between them, of which each may bring its own. -/
def joinPaths (base path : String) : String :=
  match base.toList.getLast? == some '/', path.toList with
  | true, '/' :: rest => base ++ String.ofList rest
  | false, '/' :: _ => base ++ path
  | false, _ => base ++ "/" ++ path
  | true, _ => base ++ path

/-- Both queries, the base's first; an empty one counts as none. -/
def joinQueries (base query : Option String) : Option String :=
  match base.filter (· ≠ ""), query.filter (· ≠ "") with
  | some base, some query => some (base ++ "&" ++ query)
  | some base, none => some base
  | none, query => query

def replacePrefix (old new : String) (path : String) : String :=
  match old.toList.isPrefixOf? path.toList with
  | some rest => new ++ String.ofList rest
  | none => path

inductive BackendError
  | unsupportedScheme (url : Url)
  | missingHost (url : Url)
  deriving DecidableEq, Repr

def BackendError.message : BackendError → String
  | .unsupportedScheme url =>
    "upstream URL must use the http scheme, proxied upstreams do not speak TLS: " ++ url.text
  | .missingHost url => "upstream URL has no host: " ++ url.text

/-- A backend is spoken to in plain HTTP, at a host. -/
def checkBackend (url : Url) : Except BackendError Unit :=
  if url.scheme ≠ "http" then .error (.unsupportedScheme url)
  else if url.host?.getD "" = "" then .error (.missingHost url)
  else .ok ()

inductive TargetError
  | dotSegment (path : String)
  | invalidUri (reason : UriError)
  deriving DecidableEq, Repr

def TargetError.message : TargetError → String
  | .dotSegment path => "path contains a dot segment: " ++ path
  | .invalidUri reason => "invalid upstream URI: " ++ reason.message

def TargetError.status : TargetError → Status
  | .dotSegment _ => 400
  | .invalidUri _ => 502

def target (backend : Url) (pathMap : String → String) (inbound : Uri) : Except TargetError Uri :=
  let path := pathMap inbound.path
  if DotSegment.hasDotSegment inbound.path || DotSegment.hasDotSegment path then
    .error (.dotSegment inbound.path)
  else
    let url := (backend.setPath (joinPaths backend.path path)).setQuery
      (joinQueries backend.query inbound.query)
    match Uri.parse url.text with
    | .ok uri => .ok uri
    | .error reason => .error (.invalidUri reason)

end Proxy
end TenantGate
