import TenantGate.Metrics.Exposition
import TenantGate.Network
import TenantGate.Router.Basic
/-!
# Handling requests

The handler of the chosen route gives the answer, and the router answers all other requests itself.
A request that a route handler answered is observed under its method, its route and the status.
-/

namespace TenantGate

/-- What a handler finds when a request comes: the time in seconds, and the backends. -/
structure Moment where
  now : Int
  network : Network

abbrev Handler := Moment → Request → Reply

def Handler.ofResponse (f : Request → Response) : Handler := fun _ request => ⟨f request, [], false⟩

/-- The path without its first slash, with underscores for the others. -/
def routeLabel (path : String) : String :=
  let s := path.toList
  let s := if s.head? = some '/' then s.drop 1 else s
  String.ofList (s.map fun c => if c = '/' then '_' else c)

/-- The labels under which a request counts. -/
structure RequestLabels where
  method : String
  route : String
  status : Status
  deriving DecidableEq, Repr

namespace RequestLabels

def of (request : Request) (response : Response) : RequestLabels :=
  ⟨request.method, routeLabel request.uri.path, response.status⟩

def labels (l : RequestLabels) : Labels :=
  [("method", l.method), ("route", l.route), ("status_code", Nat.repr l.status)]

def observation (space : String) (l : RequestLabels) (duration : Binary64) : Observation :=
  ⟨MetricDefinition.requestDuration.nameIn space, l.labels, duration⟩

end RequestLabels

namespace Router

/-- The answer to a request, and the labels under which it counts if a route handler gave it. -/
def handle (router : Router Handler) (moment : Moment) (request : Request) :
    Reply × Option RequestLabels :=
  match router.verdict request.method request.uri.path with
  | .dotSegment => ({ response := .ofStatus 400 }, none)
  | .metrics handler => (handler moment request, none)
  | .route r =>
    let reply := r.handler moment request
    (reply, some (.of request reply.response))
  | .wrongMethod => ({ response := .ofStatus 405 }, none)
  | .unknownPath => ({ response := .ofStatus 404 }, none)

def registry (space : String) (answered : List (RequestLabels × Binary64)) : Registry :=
  answered.foldl (fun r a => r.observe (a.1.observation space a.2)) (Registry.ofSpace space)

end Router
end TenantGate
