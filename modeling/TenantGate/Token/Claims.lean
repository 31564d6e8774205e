import TenantGate.Json.Value
/-!
# The claims of a token

A token says whom it was issued for and when it may be used.  Times are seconds; a time that is not
an integer is an error, a missing one allows any time.
-/

namespace TenantGate

structure Claims where
  subject : Option String := none
  expires : Option Int := none
  notBefore : Option Int := none
  issuedAt : Option Int := none
  deriving DecidableEq, Repr

inductive TimeError
  | expired
  | notYetValid
  | issuedInFuture
  deriving DecidableEq, Repr

namespace Claims

open Json

def members : List (Member Claims) := [
  optionalMember "sub" text fun c x => { c with subject := x },
  optionalMember "exp" int64 fun c x => { c with expires := x },
  optionalMember "nbf" int64 fun c x => { c with notBefore := x },
  optionalMember "iat" int64 fun c x => { c with issuedAt := x }]

def read : Reader Claims := record "struct Claims" members {} .ok

/-- How many brackets may be open inside a registered claim. -/
def nesting : Nat := 126

/-- A claim that is registered.  Its value is read whole and let go, whatever it is. -/
def registeredMember (name : String) (absent : Option Unit) : Member Unit where
  name := name
  read _ := attempt (Value.read nesting)
  absent _ := absent

/-- The registered claims, of which none may come twice. -/
def registered : List (Member Unit) := [
  registeredMember "exp" (some ()),
  registeredMember "nbf" (some ()),
  registeredMember "sub" none,
  registeredMember "iss" none,
  registeredMember "aud" none]

def readRegistered : Reader Unit := record "struct ClaimsForValidation" registered () .ok

/-- The claims in a document.  The document is read twice: for the claims that count here, and for
those that are registered, whose values are not looked at.  A list or an object that breaks off in
the second reading leaves a document that does not go on as it should. -/
def ofDocument (doc : Bytes) : Except String Claims := do
  let claims ← document read doc
  document readRegistered doc
  return claims

def checkTimes (c : Claims) (now : Int) : Except TimeError Unit :=
  if c.expires.any (· ≤ now) then .error .expired
  else if c.notBefore.any (now < ·) then .error .notYetValid
  else if c.issuedAt.any (now < ·) then .error .issuedInFuture
  else .ok ()

def subjectMark : String := "tenant-"

def tenant? (c : Claims) : Option String := do
  let rest ← subjectMark.toList.isPrefixOf? (← c.subject).toList
  if rest = [] then none else some (String.ofList rest)

end Claims
end TenantGate
