import TenantGate.Router.Dispatch
/-!
# What a router does with a request

The route that a router chooses is one of its own and takes the request, and a request that some
route takes is not left without one.
-/

namespace TenantGate
namespace Router

variable {α : Type} {method path : String}

/-- The first route that matches is chosen; if there is none, the path may still be known. -/
theorem choose_eq (method path : String) (seen : Bool) (routes : List (Route α)) :
    choose method path seen routes =
      match routes.find? fun r => r.pattern.matchesRequest method path with
      | some r => .route r
      | none =>
        if seen || routes.any fun r => r.pattern.wantsOtherMethod method path then .wrongMethod
        else .unknownPath := by
  induction routes generalizing seen with
  | nil => simp [choose]
  | cons first rest ih =>
    by_cases hm : first.pattern.matchesRequest method path = true
    · rw [choose_of_match hm]
      simp only [List.find?_cons, hm]
    · rw [choose_of_not_match (by simpa using hm), ih]
      simp only [List.find?_cons, hm, List.any_cons, Bool.or_assoc]
      rfl

theorem choose_eq_route_iff {seen : Bool} {routes : List (Route α)} {r : Route α} :
    choose method path seen routes = .route r ↔
      routes.find? (fun r => r.pattern.matchesRequest method path) = some r := by
  rw [choose_eq]
  split
  · next first hfirst => simp [hfirst]
  · next hnone =>
    rw [hnone]
    split <;> simp

theorem choose_eq_route {seen : Bool} {routes : List (Route α)} {r : Route α}
    (h : choose method path seen routes = .route r) :
    r ∈ routes ∧ r.pattern.matchesRequest method path = true := by
  have hfind := choose_eq_route_iff.1 h
  obtain ⟨hm, _⟩ := List.find?_eq_some_iff_append.1 hfind
  exact ⟨List.mem_of_find?_eq_some hfind, hm⟩

theorem exists_choose_eq_route {seen : Bool} {routes : List (Route α)}
    (h : ∃ r ∈ routes, r.pattern.matchesRequest method path = true) :
    ∃ r, choose method path seen routes = .route r := by
  simp only [choose_eq_route_iff, ← Option.isSome_iff_exists, List.find?_isSome]
  exact h

/-- A request is taken: it has no dot segment in its path, and a route matches it. -/
def Takes (router : Router α) (method path : String) : Prop :=
  DotSegment.hasDotSegment path = false ∧
    ∃ r ∈ router.routes, r.pattern.matchesRequest method path = true

theorem verdict_eq_route {router : Router α} {r : Route α}
    (h : router.verdict method path = .route r) : r ∈ router.routes ∧ router.Takes method path := by
  unfold verdict at h
  split at h
  · simp at h
  · next hd =>
    split at h
    · simp at h
    · obtain ⟨hr, hm⟩ := choose_eq_route h
      exact ⟨hr, by simpa using hd, r, hr, hm⟩

theorem exists_verdict_eq_route {router : Router α} (hmetrics : router.metrics = none)
    (h : router.Takes method path) : ∃ r, router.verdict method path = .route r := by
  have chosen : ∃ r, choose method path false router.routes = .route r := exists_choose_eq_route h.2
  obtain ⟨r, hr⟩ := chosen
  refine ⟨r, ?_⟩
  simp only [verdict, h.1, hmetrics]
  exact hr

variable {router : Router Handler} {moment : Moment} {request : Request}

theorem handle_of_route {r : Route Handler}
    (h : router.verdict request.method request.uri.path = .route r) :
    (router.handle moment request).1 = r.handler moment request := by
  simp [handle, h]

/-- The first of the routes gets all requests that it matches. -/
theorem handle_of_first (space : String) (r : Route Handler) (rest : List (Route Handler))
    (moment : Moment) (request : Request)
    (hd : DotSegment.hasDotSegment request.uri.path = false)
    (hm : r.pattern.matchesRequest request.method request.uri.path = true) :
    (handle ⟨space, r :: rest, none⟩ moment request).1 = r.handler moment request := by
  apply handle_of_route
  simp [verdict, hd, choose_of_match hm]

theorem choose_ne_metrics {seen : Bool} {routes : List (Route α)} {m : α} :
    choose method path seen routes ≠ .metrics m := by
  rw [choose_eq]
  split
  · simp
  · split <;> simp

theorem metrics_of_verdict {router : Router α} {m : α}
    (h : router.verdict method path = .metrics m) : router.metrics = some m := by
  unfold verdict at h
  split at h
  · cases h
  · split at h
    · next handler hmetrics _ =>
      obtain rfl : handler = m := by simpa using h
      exact hmetrics
    · exact absurd h choose_ne_metrics

theorem verdict_ne_metrics {router : Router α} (hmetrics : router.metrics = none) {m : α} :
    router.verdict method path ≠ .metrics m := by
  intro h
  rw [metrics_of_verdict h] at hmetrics
  cases hmetrics

theorem exists_route_of_sent (hmetrics : router.metrics = none)
    (h : (router.handle moment request).1.sent ≠ []) :
    ∃ r, router.verdict request.method request.uri.path = .route r := by
  unfold handle at h
  split at h
  · simp at h
  · next m hv => exact absurd hv (verdict_ne_metrics hmetrics)
  · next r hv => exact ⟨r, hv⟩
  · simp at h
  · simp at h

end Router
end TenantGate
