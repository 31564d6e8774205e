import TenantGate.Http.Wire
import TenantGate.Router.Traffic
import TenantGate.Startup
/-!
# Serving

A gateway answers the requests of a connection one after another.  Those that a route answered
count, and the metrics endpoint tells of all that were counted before.
-/

namespace TenantGate
namespace Gateway

def metricsType : String := "text/plain; version=0.0.4"

def metricsResponse (space : String) (answered : List (RequestLabels × Binary64)) : Response where
  status := 200
  headers := ⟨[(.contentType, Bytes.ofText metricsType)]⟩
  body := .ofText (String.join
    ((Exposition.lines ((Router.registry space answered).describe space)).map (· ++ "\n")))

def metered (g : Gateway) : MeteredRouter where
  space := g.router.space
  routes := g.router.routes
  endpoint := some fun counted => .ofResponse fun _ => metricsResponse g.router.space counted

/-- The responses to requests that come one after another.  None takes any time, and each response
is done with before the next request comes. -/
def respond (g : Gateway) (moment : Moment) (t : Traffic) : List Request → List Response
  | [] => []
  | request :: requests =>
    let (reply, opened) := t.answer g.metered moment request
    reply.response :: respond g moment (opened.finish t.pending.length .dropped .zero) requests

def converse (g : Gateway) (moment : Moment) (received : Bytes) : Bytes :=
  let (requests, sound) := Wire.requests none received
  let responses := g.respond moment {} requests ++ if sound then [] else [Wire.refusal]
  responses.flatMap Wire.responseBytes

@[simp] theorem length_respond (g : Gateway) (moment : Moment)
    (t : Traffic) (requests : List Request) :
    (g.respond moment t requests).length = requests.length := by
  induction requests generalizing t with
  | nil => rfl
  | cons request requests ih => simp [respond, ih]

end Gateway
end TenantGate
