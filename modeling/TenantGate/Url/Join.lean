import TenantGate.Url.Parse
/-!
# References to other URLs

A reference is a URL of its own, or it leaves out parts that are the same as those of the URL in
which it stands.
-/

namespace TenantGate
namespace Url

def originText (u : Url) : String :=
  u.scheme ++ "://" ++ (match u.authority with | some a => UrlAuthority.text a | none => "")

def directory (u : Url) : String :=
  String.ofList (u.path.toList.reverse.dropWhile (· != '/')).reverse

def join? (base : Url) (reference : String) : Option Url :=
  match Url.parse reference with
  | .ok u => some u
  | .error _ =>
    let text := match reference.toList with
      | '/' :: '/' :: _ => base.scheme ++ ":" ++ reference
      | '/' :: _ => base.originText ++ reference
      | '?' :: _ => base.originText ++ base.path ++ reference
      | '#' :: _ => base.originText ++ base.path ++ base.queryText ++ reference
      | [] => base.originText ++ base.path ++ base.queryText
      | _ => base.originText ++ base.directory ++ reference
    (Url.parse text).toOption

end Url
end TenantGate
