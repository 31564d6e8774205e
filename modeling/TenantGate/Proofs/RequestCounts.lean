import Mathlib.Data.List.Induction
import Mathlib.Data.List.Perm.Basic
import Std.Data.String.ToNat
import TenantGate.Proofs.Dispatch
import TenantGate.Router.Traffic
/-!
# Which requests count

The requests that count, and those that will when their responses are done with, are in some order
those that route handlers answered.  So it does not matter in which order and in which way the
responses end.
-/

namespace TenantGate

namespace RequestLabels

theorem labels_injective : Function.Injective labels := by
  intro l l' h
  obtain ⟨method, route, status⟩ := l
  obtain ⟨method', route', status'⟩ := l'
  simpa [labels, Nat.repr_inj] using h

end RequestLabels

namespace MeteredRouter

variable {m : MeteredRouter} {counted : List (RequestLabels × Binary64)} {moment : Moment}
  {request : Request} {r : Route Handler}

/-- The first route that takes a request, unless the path has a dot segment or is that of the
metrics endpoint. -/
def handed? (m : MeteredRouter) (request : Request) : Option (Route Handler) :=
  if DotSegment.hasDotSegment request.uri.path = true ∨
      m.endpoint.isSome = true ∧ request.uri.path = Router.metricsPath then none
  else m.routes.find? fun r => r.pattern.matchesRequest request.method request.uri.path

/-- The labels of a request that the handler of a route answers. -/
def labels? (m : MeteredRouter) (a : Moment × Request) : Option RequestLabels :=
  (m.handed? a.2).map fun r => .of a.2 (r.handler a.1 a.2).response

theorem verdict_eq_route_iff : (m.router counted).verdict request.method request.uri.path = .route r ↔
    m.handed? request = some r := by
  unfold handed? Router.verdict router
  by_cases hdot : DotSegment.hasDotSegment request.uri.path = true
  · simp [hdot]
  · by_cases hpath : request.uri.path = Router.metricsPath
    · cases m.endpoint <;> simp_all [Router.choose_eq_route_iff]
    · simp [hdot, hpath, Router.choose_eq_route_iff]

theorem handle_of_handed (h : m.handed? request = some r) :
    (m.router counted).handle moment request =
      (r.handler moment request, some (.of request (r.handler moment request).response)) := by
  simp [Router.handle, verdict_eq_route_iff.2 h]

/-- A request that is not handed to a route is refused, unknown or answered by the endpoint. -/
theorem handle_of_not_handed (counted : List (RequestLabels × Binary64)) (moment : Moment)
    (h : m.handed? request = none) :
    ((m.router counted).handle moment request).2 = none ∧
      (((m.router counted).handle moment request).1.response.status ∈ [400, 404, 405] ∨
        ∃ tell, m.endpoint = some tell ∧
          ((m.router counted).handle moment request).1 = tell counted moment request) := by
  unfold Router.handle
  split
  · exact ⟨rfl, .inl (by simp [Response.ofStatus, Response.text])⟩
  · next handler hv =>
    obtain ⟨tell, htell, rfl⟩ := Option.map_eq_some_iff.1 (Router.metrics_of_verdict hv)
    exact ⟨rfl, .inr ⟨tell, htell, rfl⟩⟩
  · next r hr =>
    rw [verdict_eq_route_iff, h] at hr
    cases hr
  · exact ⟨rfl, .inl (by simp [Response.ofStatus, Response.text])⟩
  · exact ⟨rfl, .inl (by simp [Response.ofStatus, Response.text])⟩

end MeteredRouter

theorem Sending.labels_take (s : Sending) (count : Nat) : (s.take count).labels = s.labels := rfl

def Event.answered? : Event → Option (Moment × Request)
  | .answers moment request => some (moment, request)
  | _ => none

/-- The labels under which a request comes to count in the end, once it was answered. -/
def Event.labels? (m : MeteredRouter) (e : Event) : Option RequestLabels :=
  e.answered?.bind m.labels?

namespace Traffic

/-- The labels of the requests that count, and then of those that will. -/
def labels (t : Traffic) : List RequestLabels :=
  t.counted.map (·.1) ++ t.pending.filterMap (·.labels)

theorem filterMap_modify {α β : Type} {f : α → α} {g : α → Option β} (h : ∀ a, g (f a) = g a)
    (l : List α) (i : Nat) : (l.modify i f).filterMap g = l.filterMap g := by
  induction l generalizing i with
  | nil => simp
  | cons a l ih =>
    cases i with
    | zero => simp [List.filterMap_cons, h]
    | succ i => simp [List.filterMap_cons, ih]

theorem answer_of_handed {m : MeteredRouter} {request : Request} {r : Route Handler}
    (h : m.handed? request = some r) (t : Traffic) (moment : Moment) :
    t.answer m moment request =
      (r.handler moment request,
        { t with pending := t.pending ++ [⟨(r.handler moment request).response, 0,
          some (.of request (r.handler moment request).response)⟩] }) := by
  simp [answer, MeteredRouter.handle_of_handed h]

theorem answer_of_not_handed {m : MeteredRouter} {request : Request}
    (h : m.handed? request = none) (t : Traffic) (moment : Moment) :
    ∃ reply, t.answer m moment request =
        (reply, { t with pending := t.pending ++ [⟨reply.response, 0, none⟩] }) ∧
      (reply.response.status ∈ [400, 404, 405] ∨
        ∃ tell, m.endpoint = some tell ∧ reply = tell t.counted moment request) := by
  obtain ⟨hlabels, hreply⟩ := MeteredRouter.handle_of_not_handed t.counted moment h
  exact ⟨_, by simp [answer, hlabels], hreply⟩

theorem labels_answer (t : Traffic) (m : MeteredRouter) (moment : Moment) (request : Request) :
    (t.answer m moment request).2.labels = t.labels ++ (m.labels? (moment, request)).toList := by
  cases h : m.handed? request with
  | some r =>
    rw [answer_of_handed h]
    simp [labels, MeteredRouter.labels?, h]
  | none =>
    obtain ⟨reply, hanswer, -⟩ := answer_of_not_handed h t moment
    rw [hanswer]
    simp [labels, MeteredRouter.labels?, h]

theorem labels_finish (t : Traffic) (which : Nat) (how : BodyEnd) (seconds : Binary64) :
    (t.finish which how seconds).labels.Perm t.labels := by
  unfold finish
  split
  · exact .refl _
  · next s hs =>
    split
    · obtain ⟨hlt, rfl⟩ := List.getElem?_eq_some_iff.1 hs
      have hperm : (t.pending[which].labels.toList ++
          (t.pending.eraseIdx which).filterMap (·.labels)).Perm (t.pending.filterMap (·.labels)) := by
        have h := (List.getElem_cons_eraseIdx_perm hlt).filterMap (·.labels)
        cases hl : t.pending[which].labels <;> simpa [List.filterMap_cons, hl] using h
      have hcounted : (t.pending[which].labels.toList.map (·, seconds)).map (·.1)
          = t.pending[which].labels.toList := by
        simp [List.map_map, Function.comp_def]
      rw [labels, List.map_append, hcounted, List.append_assoc]
      exact hperm.append_left _
    · exact .refl _

/-- An event adds the labels of the request that it answers, if a route handler does, and no event
takes labels away. -/
theorem labels_step (m : MeteredRouter) (t : Traffic) (e : Event) :
    (t.step m e).labels.Perm (t.labels ++ (e.labels? m).toList) := by
  cases e with
  | answers moment request => exact .of_eq (labels_answer t m moment request)
  | reads which count =>
    have hsame : (t.pending.modify which fun s => s.take count).filterMap (·.labels)
        = t.pending.filterMap (·.labels) :=
      filterMap_modify (fun s => s.labels_take count) _ _
    refine .of_eq ?_
    simp only [step, labels, hsame, Event.labels?, Event.answered?, Option.bind_none,
      Option.toList_none, List.append_nil]
  | ends which how seconds =>
    simpa [step, Event.labels?, Event.answered?] using labels_finish t which how seconds

def answered (events : List Event) : List (Moment × Request) := events.filterMap Event.answered?

theorem filterMap_answered (m : MeteredRouter) (events : List Event) :
    (answered events).filterMap m.labels? = events.filterMap fun e => e.labels? m :=
  List.filterMap_filterMap

theorem labels_run (m : MeteredRouter) (events : List Event) :
    (run m events).labels.Perm ((answered events).filterMap m.labels?) := by
  rw [filterMap_answered]
  induction events using List.reverseRecOn with
  | nil => exact .refl _
  | append_singleton events e ih =>
    have hlast : [e].filterMap (fun e => e.labels? m) = (e.labels? m).toList := by
      cases h : e.labels? m <;> simp [h]
    rw [run_append, List.filterMap_append, hlast]
    exact (labels_step m _ e).trans (ih.append_right _)

/-- Once all responses are done with, what counts is what route handlers answered. -/
theorem counted_run {m : MeteredRouter} {events : List Event} (h : (run m events).pending = []) :
    ((run m events).counted.map (·.1)).Perm ((answered events).filterMap m.labels?) := by
  simpa [labels, h] using labels_run m events

end Traffic

theorem Router.registry_eq (space : String) (counted : List (RequestLabels × Binary64)) :
    Router.registry space counted =
      { Registry.ofSpace space with
        observations := counted.map fun c => c.1.observation space c.2 } := by
  induction counted using List.reverseRecOn with
  | nil => rfl
  | append_singleton counted c ih =>
    have hlast : Router.registry space (counted ++ [c])
        = (Router.registry space counted).observe (c.1.observation space c.2) := by
      simp only [Router.registry, List.foldl_append, List.foldl_cons, List.foldl_nil]
    rw [hlast, ih, List.map_append]
    rfl

namespace MeteredRouter

/-- A request was handed to the handler of a route, its method and the label of its path are these,
and it was answered with this status. -/
def AnswersAs (m : MeteredRouter) (l : RequestLabels) (a : Moment × Request) : Prop :=
  ∃ r, m.handed? a.2 = some r ∧ a.2.method = l.method ∧ routeLabel a.2.uri.path = l.route ∧
    (r.handler a.1 a.2).response.status = l.status

theorem answersAs_iff {m : MeteredRouter} {l : RequestLabels} {a : Moment × Request} :
    m.AnswersAs l a ↔ m.labels? a = some l := by
  obtain ⟨method, route, status⟩ := l
  simp [AnswersAs, labels?, RequestLabels.of, Option.map_eq_some_iff]

instance (m : MeteredRouter) (l : RequestLabels) : DecidablePred (m.AnswersAs l) :=
  fun _ => decidable_of_iff _ answersAs_iff.symm

end MeteredRouter

namespace Traffic

variable {m : MeteredRouter} {events : List Event}

/-- Of the requests of any kind as many count as route handlers answered. -/
theorem countP_counted (h : (run m events).pending = []) (kind : RequestLabels → Bool) :
    (run m events).counted.countP (fun c => kind c.1)
      = (answered events).countP fun a => (m.labels? a).any kind := by
  have hperm := (counted_run h).countP_eq kind
  rw [List.countP_map, List.countP_filterMap] at hperm
  refine hperm.trans (List.countP_congr fun a _ => ?_)
  cases m.labels? a <;> simp

theorem countP_observations (h : (run m events).pending = []) (l : RequestLabels) :
    (Router.registry m.space (run m events).counted).observations.countP
        (fun o => o.metric = MetricDefinition.requestDuration.nameIn m.space ∧ o.labels = l.labels)
      = (answered events).countP (m.AnswersAs l ·) := by
  rw [Router.registry_eq, List.countP_map]
  refine Eq.trans ?_ ((countP_counted h (· == l)).trans ?_)
  · refine List.countP_congr fun c _ => ?_
    simp [RequestLabels.observation, RequestLabels.labels_injective.eq_iff]
  · refine List.countP_congr fun a _ => ?_
    simp [MeteredRouter.answersAs_iff, Option.any_eq_true]

end Traffic
end TenantGate
