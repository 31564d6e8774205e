import Mathlib.Logic.Equiv.Basic
import Mathlib.Order.Fin.Basic
import TenantGate.Proofs.RouterVerdict
/-!
# The order of routes

Routes that no request can match together may be added in any order.  What becomes of a request
depends only on the order of the routes that overlap.
-/

namespace TenantGate

namespace RoutePattern

variable {p q : RoutePattern}

/-- One start begins with the other, a start begins an exact path, or two exact routes are for the
same path and method. -/
def Overlaps : RoutePattern → RoutePattern → Prop
  | .startingWith s, .startingWith t => s.toList <+: t.toList ∨ t.toList <+: s.toList
  | .startingWith s, .exactly _ path => s.toList <+: path.toList
  | .exactly _ path, .startingWith s => s.toList <+: path.toList
  | .exactly m path, .exactly m' path' => path = path' ∧ m = m'

instance : DecidableRel Overlaps := fun p q => by
  cases p <;> cases q <;> unfold Overlaps <;> infer_instance

theorem overlaps_of_takes {method path : String} (hp : p.Takes method path)
    (hq : q.Takes method path) : p.Overlaps q := by
  cases hp with
  | start hs =>
    cases hq with
    | start ht => exact List.prefix_or_prefix_of_prefix hs ht
    | exact => exact hs
  | exact =>
    cases hq with
    | start ht => exact ht
    | exact => exact ⟨rfl, rfl⟩

/-- Two routes overlap exactly if some request could go to either. -/
theorem overlaps_iff : p.Overlaps q ↔ ∃ method path, p.Takes method path ∧ q.Takes method path := by
  constructor
  · intro h
    cases p with
    | startingWith s =>
      cases q with
      | startingWith t =>
        rcases h with h | h
        · exact ⟨"", t, .start h, .start (List.prefix_refl _)⟩
        · exact ⟨"", s, .start (List.prefix_refl _), .start h⟩
      | exactly m path => exact ⟨m, path, .start h, .exact⟩
    | exactly m path =>
      cases q with
      | startingWith t => exact ⟨m, path, .exact, .start h⟩
      | exactly m' path' =>
        obtain ⟨rfl, rfl⟩ := h
        exact ⟨m, path, .exact, .exact⟩
  · rintro ⟨method, path, hp, hq⟩
    exact overlaps_of_takes hp hq

end RoutePattern

/-- The routes of one list stand at other places in another one, and overlapping routes stand in the
same order in both. -/
structure Rearranges {α : Type} (routes others : List (Route α))
    (place : Fin routes.length ≃ Fin others.length) : Prop where
  same : ∀ i, others.get (place i) = routes.get i
  order : ∀ i j, i < j → (routes.get i).pattern.Overlaps (routes.get j).pattern → place i < place j

namespace Rearranges

variable {α : Type} {routes others : List (Route α)} {place : Fin routes.length ≃ Fin others.length}
  {method path : String}

theorem mem_iff (h : Rearranges routes others place) {r : Route α} : r ∈ others ↔ r ∈ routes := by
  rw [List.mem_iff_get, List.mem_iff_get]
  constructor
  · rintro ⟨k, rfl⟩
    refine ⟨place.symm k, ?_⟩
    have hsame := h.same (place.symm k)
    rw [Equiv.apply_symm_apply] at hsame
    exact hsame.symm
  · rintro ⟨i, rfl⟩
    exact ⟨place i, h.same i⟩

/-- A route that is the first to take a request in one order is the first in the other one: another
route that takes the request overlaps it, so that it comes later in both. -/
theorem not_takes_before (h : Rearranges routes others place) {i : Fin routes.length}
    (hfront : ∀ j, j < i → ¬(routes.get j).pattern.Takes method path)
    (htakes : (routes.get i).pattern.Takes method path) {k : Fin others.length} (hk : k < place i) :
    ¬(others.get k).pattern.Takes method path := by
  intro hother
  obtain ⟨j, rfl⟩ := place.surjective k
  rw [h.same j] at hother
  rcases lt_trichotomy j i with hlt | rfl | hgt
  · exact hfront j hlt hother
  · exact lt_irrefl _ hk
  · exact lt_asymm hk (h.order i j hgt (RoutePattern.overlaps_of_takes htakes hother))

end Rearranges

namespace Router

variable {α : Type} {router other : Router α} {method path : String}

theorem Sends.of_first (hsearch : router.Searches path) {i : Fin router.routes.length}
    (hfront : ∀ j, j < i → ¬(router.routes.get j).pattern.Takes method path)
    (htakes : (router.routes.get i).pattern.Takes method path) :
    router.Sends method path (.route (router.routes.get i)) := by
  have hroutes : router.routes
      = router.routes.take i ++ router.routes.get i :: router.routes.drop (i + 1) := by simp
  refine .route hsearch hroutes ?_ htakes
  intro earlier hearlier
  obtain ⟨j, hj, rfl⟩ := List.mem_take_iff_getElem.1 hearlier
  have hlt : j < i := by omega
  exact hfront ⟨j, by omega⟩ hlt

theorem exists_first {routes front back : List (Route α)} {r : Route α}
    (hroutes : routes = front ++ r :: back)
    (hfront : ∀ earlier ∈ front, ¬earlier.pattern.Takes method path) :
    ∃ i : Fin routes.length, routes.get i = r ∧
      ∀ j, j < i → ¬(routes.get j).pattern.Takes method path := by
  subst hroutes
  refine ⟨⟨front.length, by simp⟩, by simp, ?_⟩
  intro j hj
  apply hfront
  have hlt : j.val < front.length := hj
  rw [List.get_eq_getElem, List.getElem_append_left hlt]
  exact List.getElem_mem hlt

theorem Sends.rearranged {place : Fin router.routes.length ≃ Fin other.routes.length}
    (hmetrics : router.metrics = other.metrics) (h : Rearranges router.routes other.routes place)
    {v : Verdict α} (hv : router.Sends method path v) : other.Sends method path v := by
  have searches (hs : router.Searches path) : other.Searches path :=
    ⟨hs.dots, fun hpath => hmetrics ▸ hs.metrics hpath⟩
  cases hv with
  | dotSegment hdots => exact .dotSegment hdots
  | metrics hdots hpath hhandler => exact .metrics hdots hpath (hmetrics ▸ hhandler)
  | route hsearch hroutes hfront htakes =>
    obtain ⟨i, rfl, hfirst⟩ := exists_first hroutes hfront
    rw [← h.same i]
    refine .of_first (searches hsearch) (fun k hk => h.not_takes_before hfirst htakes hk) ?_
    rw [h.same i]
    exact htakes
  | wrongMethod hsearch hnone hpath =>
    refine .wrongMethod (searches hsearch) (fun r hr => hnone r (h.mem_iff.1 hr)) ?_
    obtain ⟨r, hr, hp⟩ := hpath
    exact ⟨r, h.mem_iff.2 hr, hp⟩
  | unknownPath hsearch hnone hpath =>
    exact .unknownPath (searches hsearch) (fun r hr => hnone r (h.mem_iff.1 hr)) fun r hr =>
      hpath r (h.mem_iff.1 hr)

/-- The order of routes that do not overlap makes no difference. -/
theorem verdict_rearranged {place : Fin router.routes.length ≃ Fin other.routes.length}
    (hmetrics : router.metrics = other.metrics)
    (h : Rearranges router.routes other.routes place) (method path : String) :
    router.verdict method path = other.verdict method path := by
  have hsends : router.Sends method path (router.verdict method path) := verdict_iff.1 rfl
  exact (verdict_of_sends (hsends.rearranged hmetrics h)).symm

theorem handle_congr {router other : Router Handler} {moment : Moment} {request : Request}
    (h : router.verdict request.method request.uri.path
      = other.verdict request.method request.uri.path) :
    router.handle moment request = other.handle moment request := by
  rw [handle, handle, h]

/-- Two routers whose routes stand in another order, though overlapping ones in the same, send each
request to the same route, or to none for the same reason, and so give the same answer. -/
theorem rearranged_alike {place : Fin router.routes.length ≃ Fin other.routes.length}
    (hmetrics : router.metrics = other.metrics)
    (hplace : Rearranges router.routes other.routes place) :
    (∀ method path, router.verdict method path = other.verdict method path) ∧
      ∀ (play : α → Handler) (moment : Moment) (request : Request),
        (router.map play).handle moment request = (other.map play).handle moment request := by
  have hverdict (method path : String) : router.verdict method path = other.verdict method path :=
    verdict_rearranged hmetrics hplace method path
  refine ⟨hverdict, fun play moment request => handle_congr ?_⟩
  rw [verdict_map, verdict_map, hverdict]

def pushFirst : Router String where
  space := "ns"
  routes := [⟨.startingWith "/api/v1/push", "distributor"⟩, ⟨.exactly "POST" "/ruler", "ruler"⟩,
    ⟨.startingWith "/api/v1", "querier"⟩]
  metrics := some "metrics"

def rulerFirst : Router String where
  space := "ns"
  routes := [⟨.exactly "POST" "/ruler", "ruler"⟩, ⟨.startingWith "/api/v1/push", "distributor"⟩,
    ⟨.startingWith "/api/v1", "querier"⟩]
  metrics := some "metrics"

def rulerToFront : Fin pushFirst.routes.length ≃ Fin rulerFirst.routes.length :=
  (Equiv.swap 0 1 : Fin 3 ≃ Fin 3)

/-- The exact route may come first, for only the two starts overlap. -/
theorem rearranged_alike_of_ruler_first :
    pushFirst.metrics = rulerFirst.metrics ∧
      Rearranges pushFirst.routes rulerFirst.routes rulerToFront ∧
      ∀ method path, pushFirst.verdict method path = rulerFirst.verdict method path := by
  have hmetrics : pushFirst.metrics = rulerFirst.metrics := rfl
  have hplace : Rearranges pushFirst.routes rulerFirst.routes rulerToFront :=
    ⟨by decide +kernel, by decide +kernel⟩
  exact ⟨hmetrics, hplace, (rearranged_alike hmetrics hplace).1⟩

end Router
end TenantGate
