import TenantGate.Url.Parse
/-!
# Where errors are reported

A DSN is a URL that names a server, the key of whoever reports and, at the end of its path, a
project.
-/

namespace TenantGate

structure Dsn where
  url : Url
  key : String
  project : String
  deriving DecidableEq, Repr

inductive DsnError
  | noUrl
  | unknownScheme
  | noKey
  | noPath
  | noProject
  deriving DecidableEq, Repr

def DsnError.messages : DsnError → String × List String
  | .noUrl => ("no valid url provided", [])
  | .unknownScheme => ("no valid scheme", [])
  | .noKey => ("username is empty", [])
  | .noPath => ("empty path", [])
  | .noProject => ("invalid project id", ["empty or missing project id"])

namespace Dsn

/-- The last part of a path, whatever slashes are around it. -/
def lastPart (path : String) : String :=
  String.ofList (((path.toList.reverse.dropWhile (· == '/')).takeWhile (· != '/')).reverse)

def parse (text : String) : Except DsnError Dsn := do
  let url ← (Url.parse text).mapError fun _ => .noUrl
  if url.path = "/" then throw .noPath
  let project := lastPart url.path
  if project.isEmpty then throw .noProject
  let key := url.authority.elim "" (·.username)
  if key.isEmpty then throw .noKey
  if url.scheme ≠ "http" ∧ url.scheme ≠ "https" then throw .unknownScheme
  return ⟨url, key, project⟩

end Dsn
end TenantGate
