import TenantGate.Http.Message
/-!
# Backends

What lies behind the gateway is known by its answers alone.  A network gives the outcome of a
request from all requests that were sent on behalf of one inbound request, the latest being the
last.  Whoever sends requests keeps the list of them.
-/

namespace TenantGate

structure OutboundRequest where
  method : String
  target : Uri
  headers : Headers
  body : Body
  deriving DecidableEq, Repr

inductive SendFailure
  | unreachable
  | refused
  | unknownHost
  | closed
  deriving DecidableEq, Repr

def SendFailure.messages : SendFailure → String × List String
  | .unreachable => ("client error (Connect)",
      ["tcp connect error", "Network is unreachable (os error 101)"])
  | .refused => ("client error (Connect)",
      ["tcp connect error", "Connection refused (os error 111)"])
  | .unknownHost => ("client error (Connect)", ["dns error",
      "failed to lookup address information: Temporary failure in name resolution"])
  | .closed => ("client error (SendRequest)", ["connection closed before message completed"])

abbrev Outcome := Except SendFailure Response

abbrev Network := List OutboundRequest → Outcome

namespace Network

/-- A network that lets no connection through: names are not resolved, and addresses are not
reached. -/
def isolated (isAddress : String → Bool) : Network := fun sent =>
  match sent.getLast?.bind (·.target.authority) with
  | some authority => .error (if isAddress authority then .unreachable else .unknownHost)
  | none => .error .unreachable

end Network

/-- What a handler did: the requests it sent, in order, the response it gave, and whether it
connected both sides directly afterwards. -/
structure Reply where
  response : Response
  sent : List OutboundRequest := []
  tunnelled : Bool := false
  deriving DecidableEq, Repr

end TenantGate
