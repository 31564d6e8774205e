import TenantGate.Proxy.DotSegment
/-!
# Choosing a route

A router has a list of routes and perhaps an endpoint for metrics.  A path with a dot segment is
refused, the path of the metrics endpoint is reserved for it, and every other request goes to the
first route that matches it.
-/

namespace TenantGate

/-- Which requests a route takes: all whose path starts in a given way, or those with a given method
and path. -/
inductive RoutePattern
  | startingWith (start : String)
  | exactly (method path : String)
  deriving DecidableEq, Repr

namespace RoutePattern

def matchesRequest (method path : String) : RoutePattern → Bool
  | .startingWith start => path.startsWith start
  | .exactly m p => p == path && m == method

/-- Whether only the method keeps a route from taking a request. -/
def wantsOtherMethod (method path : String) : RoutePattern → Bool
  | .startingWith _ => false
  | .exactly m p => p == path && m != method

end RoutePattern

structure Route (α : Type) where
  pattern : RoutePattern
  handler : α
  deriving DecidableEq, Repr

structure Router (α : Type) where
  space : String
  routes : List (Route α) := []
  metrics : Option α := none
  deriving DecidableEq, Repr

inductive Verdict (α : Type)
  | dotSegment
  | metrics (handler : α)
  | route (r : Route α)
  | wrongMethod
  | unknownPath
  deriving DecidableEq, Repr

namespace Router

variable {α : Type}

def metricsPath : String := "/metrics"

/-- The first route that matches; `seen` tells whether a route before these had the path but
another method. -/
def choose (method path : String) : (seen : Bool) → List (Route α) → Verdict α
  | seen, [] => if seen then .wrongMethod else .unknownPath
  | seen, r :: rest =>
    if r.pattern.matchesRequest method path then .route r
    else choose method path (seen || r.pattern.wantsOtherMethod method path) rest

def verdict (router : Router α) (method path : String) : Verdict α :=
  if DotSegment.hasDotSegment path then .dotSegment
  else match router.metrics, path == metricsPath with
    | some handler, true => .metrics handler
    | _, _ => choose method path false router.routes

theorem choose_of_match {method path : String} {seen : Bool} {r : Route α}
    {rest : List (Route α)} (h : r.pattern.matchesRequest method path = true) :
    choose method path seen (r :: rest) = .route r := by
  simp [choose, h]

theorem choose_of_not_match {method path : String} {seen : Bool} {r : Route α}
    {rest : List (Route α)} (h : r.pattern.matchesRequest method path = false) :
    choose method path seen (r :: rest)
      = choose method path (seen || r.pattern.wantsOtherMethod method path) rest := by
  simp [choose, h]

end Router
end TenantGate
