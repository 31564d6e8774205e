import TenantGate.Binary64
/-!
# Known metrics

One histogram is kept by every service: how long requests took.  Its name starts with the name
space of the service.
-/

namespace TenantGate

structure MetricDefinition where
  name : String
  description : String
  bounds : List Binary64
  deriving DecidableEq, Repr

namespace MetricDefinition

/-- A name below a name space; the empty name space adds nothing. -/
def namespaced (space name : String) : String := if space = "" then name else space ++ "_" ++ name

def requestDurationMillis : List Nat :=
  [5, 10, 25, 50, 100, 250, 500, 1000, 2500, 5000, 10000, 25000, 50000, 100000]

def requestDuration : MetricDefinition where
  name := "request_duration_seconds"
  description := "Duration of HTTP requests in seconds. Tagged with method, route, status_code."
  bounds := requestDurationMillis.map fun n => .ofFloat (Float.ofScientific n true 3)

def nameIn (d : MetricDefinition) (space : String) : String := namespaced space d.name

end MetricDefinition
end TenantGate
