import TenantGate.Proofs.Dispatch
import TenantGate.Proofs.DotForms
/-!
# What becomes of a request

What a router does with a request is said apart from its search: refused for its dots, reserved for
the metrics endpoint, sent to the first route that takes it, or sent nowhere.  One handler at most
has a say in the answer, and only by what it makes of this very request.
-/

namespace TenantGate

namespace DotSegment

/-- A segment of the path stands for one dot or for two. -/
def HasDots (path : String) : Prop :=
  ∃ segment ∈ path.toList.splitOn '/',
    Percent.decode segment = [0x2e] ∨ Percent.decode segment = [0x2e, 0x2e]

theorem hasDotSegment_iff {path : String} : hasDotSegment path = true ↔ HasDots path := by
  simp only [hasDotSegment, List.any_eq_true, Dot.isDotSegment_iff_decode, HasDots]

theorem hasDotSegment_eq_false_iff {path : String} : hasDotSegment path = false ↔ ¬HasDots path := by
  rw [← hasDotSegment_iff, Bool.not_eq_true]

end DotSegment

namespace RoutePattern

variable {method path : String}

/-- A route takes all paths that start in its way, or one path with one method. -/
inductive Takes (method path : String) : RoutePattern → Prop
  | start {start : String} (h : start.toList <+: path.toList) : Takes method path (.startingWith start)
  | exact : Takes method path (.exactly method path)

/-- An exact route has this path, with whichever method. -/
def HasPath (path : String) (p : RoutePattern) : Prop := ∃ method, p = .exactly method path

theorem matchesRequest_iff {p : RoutePattern} :
    p.matchesRequest method path = true ↔ p.Takes method path := by
  cases p with
  | startingWith start =>
    rw [matchesRequest, String.startsWith_string_iff]
    exact ⟨.start, fun h => by cases h; assumption⟩
  | exactly m p =>
    rw [matchesRequest, Bool.and_eq_true, beq_iff_eq, beq_iff_eq]
    constructor
    · rintro ⟨rfl, rfl⟩
      exact .exact
    · intro h
      cases h
      exact ⟨rfl, rfl⟩

theorem matchesRequest_eq_false_iff {p : RoutePattern} :
    p.matchesRequest method path = false ↔ ¬p.Takes method path := by
  rw [← matchesRequest_iff, Bool.not_eq_true]

theorem wantsOtherMethod_iff {p : RoutePattern} :
    p.wantsOtherMethod method path = true ↔ p.HasPath path ∧ ¬p.Takes method path := by
  cases p with
  | startingWith start => simp [wantsOtherMethod, HasPath]
  | exactly m p =>
    rw [← matchesRequest_iff]
    by_cases hpath : p = path <;> by_cases hm : m = method <;>
      simp [wantsOtherMethod, matchesRequest, HasPath, hpath, hm]

end RoutePattern

namespace Router

variable {α β : Type} {router : Router α} {method path : String}

/-- The routes of a router are asked about a path. -/
structure Searches (router : Router α) (path : String) : Prop where
  dots : ¬DotSegment.HasDots path
  metrics : path = metricsPath → router.metrics = none

/-- What becomes of a request, by the routes in the order in which they were added. -/
inductive Sends (router : Router α) (method path : String) : Verdict α → Prop
  | dotSegment (hdots : DotSegment.HasDots path) : Sends router method path .dotSegment
  | metrics {handler : α} (hdots : ¬DotSegment.HasDots path) (hpath : path = metricsPath)
      (hmetrics : router.metrics = some handler) : Sends router method path (.metrics handler)
  | route {front back : List (Route α)} {r : Route α} (hsearch : router.Searches path)
      (hroutes : router.routes = front ++ r :: back)
      (hfront : ∀ earlier ∈ front, ¬earlier.pattern.Takes method path)
      (htakes : r.pattern.Takes method path) : Sends router method path (.route r)
  | wrongMethod (hsearch : router.Searches path)
      (hnone : ∀ r ∈ router.routes, ¬r.pattern.Takes method path)
      (hpath : ∃ r ∈ router.routes, r.pattern.HasPath path) : Sends router method path .wrongMethod
  | unknownPath (hsearch : router.Searches path)
      (hnone : ∀ r ∈ router.routes, ¬r.pattern.Takes method path)
      (hpath : ∀ r ∈ router.routes, ¬r.pattern.HasPath path) : Sends router method path .unknownPath

theorem Searches.verdict_eq (h : router.Searches path) :
    router.verdict method path = choose method path false router.routes := by
  have hdots := DotSegment.hasDotSegment_eq_false_iff.2 h.dots
  by_cases hpath : path = metricsPath
  · simp [verdict, hdots, h.metrics hpath]
  · simp [verdict, hdots, hpath]

theorem choose_of_first {front back : List (Route α)} {r : Route α}
    (hfront : ∀ earlier ∈ front, ¬earlier.pattern.Takes method path)
    (htakes : r.pattern.Takes method path) :
    choose method path false (front ++ r :: back) = .route r := by
  rw [choose_eq_route_iff, List.find?_eq_some_iff_append]
  refine ⟨RoutePattern.matchesRequest_iff.2 htakes, front, back, rfl, ?_⟩
  intro earlier hearlier
  simpa using RoutePattern.matchesRequest_eq_false_iff.2 (hfront earlier hearlier)

theorem choose_of_none {routes : List (Route α)}
    (hnone : ∀ r ∈ routes, ¬r.pattern.Takes method path) :
    choose method path false routes =
      if routes.any fun r => r.pattern.wantsOtherMethod method path then .wrongMethod
      else .unknownPath := by
  have hfind : routes.find? (fun r => r.pattern.matchesRequest method path) = none := by
    rw [List.find?_eq_none]
    intro r hr htakes
    exact hnone r hr (RoutePattern.matchesRequest_iff.1 htakes)
  rw [choose_eq, hfind, Bool.false_or]

theorem verdict_of_sends {v : Verdict α} (h : router.Sends method path v) :
    router.verdict method path = v := by
  cases h with
  | dotSegment hdots => simp [verdict, DotSegment.hasDotSegment_iff.2 hdots]
  | metrics hdots hpath hmetrics =>
    subst hpath
    simp [verdict, DotSegment.hasDotSegment_eq_false_iff.2 hdots, hmetrics]
  | route hsearch hroutes hfront htakes =>
    rw [hsearch.verdict_eq, hroutes, choose_of_first hfront htakes]
  | wrongMethod hsearch hnone hpath =>
    obtain ⟨r, hr, hp⟩ := hpath
    have hany : (router.routes.any fun r => r.pattern.wantsOtherMethod method path) = true :=
      List.any_eq_true.2 ⟨r, hr, RoutePattern.wantsOtherMethod_iff.2 ⟨hp, hnone r hr⟩⟩
    rw [hsearch.verdict_eq, choose_of_none hnone, if_pos hany]
  | unknownPath hsearch hnone hpath =>
    have hany : ¬(router.routes.any fun r => r.pattern.wantsOtherMethod method path) = true := by
      intro h
      obtain ⟨r, hr, hwants⟩ := List.any_eq_true.1 h
      exact hpath r hr (RoutePattern.wantsOtherMethod_iff.1 hwants).1
    rw [hsearch.verdict_eq, choose_of_none hnone, if_neg hany]

theorem exists_sends (router : Router α) (method path : String) : ∃ v, router.Sends method path v := by
  by_cases hdots : DotSegment.HasDots path
  · exact ⟨_, .dotSegment hdots⟩
  by_cases hreserved : path = metricsPath ∧ router.metrics ≠ none
  · obtain ⟨handler, hmetrics⟩ := Option.ne_none_iff_exists'.1 hreserved.2
    exact ⟨_, .metrics hdots hreserved.1 hmetrics⟩
  have hsearch : router.Searches path :=
    ⟨hdots, fun hpath => Decidable.of_not_not fun hmetrics => hreserved ⟨hpath, hmetrics⟩⟩
  cases hfind : router.routes.find? fun r => r.pattern.matchesRequest method path with
  | some r =>
    obtain ⟨htakes, front, back, hroutes, hfront⟩ := List.find?_eq_some_iff_append.1 hfind
    refine ⟨_, .route hsearch hroutes ?_ (RoutePattern.matchesRequest_iff.1 htakes)⟩
    intro earlier hearlier
    exact RoutePattern.matchesRequest_eq_false_iff.1 (by simpa using hfront earlier hearlier)
  | none =>
    have hnone : ∀ r ∈ router.routes, ¬r.pattern.Takes method path := fun r hr htakes =>
      List.find?_eq_none.1 hfind r hr (RoutePattern.matchesRequest_iff.2 htakes)
    by_cases hpath : ∃ r ∈ router.routes, r.pattern.HasPath path
    · exact ⟨_, .wrongMethod hsearch hnone hpath⟩
    · exact ⟨_, .unknownPath hsearch hnone fun r hr h => hpath ⟨r, hr, h⟩⟩

theorem verdict_iff {v : Verdict α} : router.verdict method path = v ↔ router.Sends method path v := by
  constructor
  · rintro rfl
    obtain ⟨v, hv⟩ := exists_sends router method path
    rw [verdict_of_sends hv]
    exact hv
  · exact verdict_of_sends

theorem verdict_eq_route_iff {r : Route α} : router.verdict method path = .route r ↔
    router.Searches path ∧ choose method path false router.routes = .route r := by
  constructor
  · intro h
    cases verdict_iff.1 h with
    | route hsearch hroutes hfront htakes =>
      exact ⟨hsearch, by rw [hroutes, choose_of_first hfront htakes]⟩
  · rintro ⟨hsearch, h⟩
    rw [hsearch.verdict_eq, h]

/-- A route that does not take a request hides no other from it. -/
theorem verdict_eq_route_iff_of_not_takes {front back : List (Route α)} {left r : Route α}
    (hroutes : router.routes = front ++ left :: back) (hleft : ¬left.pattern.Takes method path) :
    router.verdict method path = .route r ↔
      { router with routes := front ++ back }.verdict method path = .route r := by
  have hmatch := RoutePattern.matchesRequest_eq_false_iff.2 hleft
  have hsearch : router.Searches path ↔ { router with routes := front ++ back }.Searches path :=
    ⟨fun h => ⟨h.dots, h.metrics⟩, fun h => ⟨h.dots, h.metrics⟩⟩
  rw [verdict_eq_route_iff, verdict_eq_route_iff, hsearch, hroutes]
  simp only [choose_eq_route_iff, List.find?_append, List.find?_cons, hmatch]

end Router

section Handlers

variable {α β : Type} (play : α → β)

def Route.map (r : Route α) : Route β := ⟨r.pattern, play r.handler⟩

namespace Verdict

def map : Verdict α → Verdict β
  | .dotSegment => .dotSegment
  | .metrics handler => .metrics (play handler)
  | .route r => .route (r.map play)
  | .wrongMethod => .wrongMethod
  | .unknownPath => .unknownPath

/-- What a request is handed to, if it is handed to anything. -/
def handler? : Verdict α → Option α
  | .metrics handler => some handler
  | .route r => some r.handler
  | .dotSegment | .wrongMethod | .unknownPath => none

def reply (moment : Moment) (request : Request) : Verdict Handler → Reply
  | .dotSegment => { response := .ofStatus 400 }
  | .metrics handler => handler moment request
  | .route r => r.handler moment request
  | .wrongMethod => { response := .ofStatus 405 }
  | .unknownPath => { response := .ofStatus 404 }

/-- Only one handler has a say, and only by what it makes of the request. -/
theorem reply_map_congr {play other : α → Handler} {moment : Moment} {request : Request}
    {v : Verdict α}
    (h : ∀ handler ∈ v.handler?, other handler moment request = play handler moment request) :
    (v.map other).reply moment request = (v.map play).reply moment request := by
  cases v with
  | dotSegment => rfl
  | metrics handler => exact h handler rfl
  | route r => exact h r.handler rfl
  | wrongMethod => rfl
  | unknownPath => rfl

end Verdict

namespace Router

def map (router : Router α) : Router β :=
  ⟨router.space, router.routes.map (Route.map play), router.metrics.map play⟩

theorem choose_map (method path : String) (seen : Bool) (routes : List (Route α)) :
    choose method path seen (routes.map (Route.map play))
      = (choose method path seen routes).map play := by
  induction routes generalizing seen with
  | nil => cases seen <;> rfl
  | cons r rest ih =>
    rw [List.map_cons, choose, choose, apply_ite (Verdict.map play), ← ih]
    rfl

theorem verdict_map (router : Router α) (method path : String) :
    (router.map play).verdict method path = (router.verdict method path).map play := by
  unfold verdict
  split
  · rfl
  · cases hmetrics : router.metrics with
    | none => simp [map, hmetrics, choose_map]
    | some handler => cases path == metricsPath <;> simp [map, hmetrics, choose_map, Verdict.map]

theorem handle_eq_reply (router : Router Handler) (moment : Moment) (request : Request) :
    (router.handle moment request).1
      = (router.verdict request.method request.uri.path).reply moment request := by
  unfold handle
  split <;> next h => rw [h]; rfl

theorem handle_map (play : α → Handler) (router : Router α) (moment : Moment) (request : Request) :
    ((router.map play).handle moment request).1
      = ((router.verdict request.method request.uri.path).map play).reply moment request := by
  rw [handle_eq_reply, verdict_map]

/-- A router does what its routes say in their order.  The answer is its own or that of the one
handler that the request is handed to as it is, whatever the other handlers do, and a route that
does not take the request, as an exact one with another method, hides no other. -/
theorem dispatches (router : Router α) (play : α → Handler) (moment : Moment) (request : Request) :
    (∀ v, router.verdict request.method request.uri.path = v ↔
      router.Sends request.method request.uri.path v) ∧
    ((router.map play).handle moment request).1
      = ((router.verdict request.method request.uri.path).map play).reply moment request ∧
    (∀ other : α → Handler,
      (∀ handler ∈ (router.verdict request.method request.uri.path).handler?,
        other handler moment request = play handler moment request) →
      ((router.map other).handle moment request).1 = ((router.map play).handle moment request).1) ∧
    ∀ front left back, router.routes = front ++ left :: back →
      ¬left.pattern.Takes request.method request.uri.path → ∀ r,
      router.verdict request.method request.uri.path = .route r ↔
        { router with routes := front ++ back }.verdict request.method request.uri.path
          = .route r := by
  refine ⟨fun v => verdict_iff, handle_map play router moment request, ?_, ?_⟩
  · intro other hother
    rw [handle_map, handle_map]
    exact Verdict.reply_map_congr hother
  · intro front left back hroutes hleft r
    exact verdict_eq_route_iff_of_not_takes hroutes hleft

/-- The route for all methods is found behind two that have the path. -/
example : (⟨"ns", [⟨.exactly "POST" "/a", "first"⟩, ⟨.exactly "GET" "/a", "second"⟩,
    ⟨.startingWith "/a", "third"⟩], none⟩ : Router String).verdict "DELETE" "/a"
      = .route ⟨.startingWith "/a", "third"⟩ := by
  decide +kernel

end Router

end Handlers

end TenantGate
