import TenantGate.Http.Header
import TenantGate.Http.Status
import TenantGate.Http.Uri
/-!
# Requests and responses

A message has a head and a body.  A body that comes from a connection may break off before its
end; what was read until then is kept beside the fact that it is not complete.
-/

namespace TenantGate

structure Body where
  bytes : Bytes := []
  complete : Bool := true
  deriving DecidableEq, Repr

namespace Body

def read? (b : Body) : Option Bytes := if b.complete then some b.bytes else none

def ofText (s : String) : Body := ⟨Bytes.ofText s, true⟩

end Body

/-- A request as a handler receives it, with the address of the connection it came on. -/
structure Request where
  method : String := "GET"
  uri : Uri
  headers : Headers := {}
  body : Body := {}
  peer : Option String := none
  deriving DecidableEq, Repr

namespace Request

def isMethod (s : String) : Bool := !s.isEmpty && s.toList.all Headers.isNameChar

end Request

structure Response where
  status : Status
  headers : Headers := {}
  body : Body := {}
  deriving DecidableEq, Repr

namespace Response

def plainTextType : String := "text/plain; charset=utf-8"

def text (status : Status) (body : String) : Response where
  status := status
  headers := ⟨[(.contentType, Bytes.ofText plainTextType)]⟩
  body := .ofText body

/-- A response that says no more than what its status means. -/
def ofStatus (status : Status) : Response :=
  text status ((Status.reason? status).getD "an error occurred")

end Response
end TenantGate
