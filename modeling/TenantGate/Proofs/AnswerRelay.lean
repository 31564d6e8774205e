import TenantGate.Proofs.OutboundHead
/-!
# What clients get of answers

An answer reaches the client as the backend gave it, without the fields of the connection between
gateway and backend.  On push paths some answers are changed: a client that is told of a fault of
the server is told so by the gateway, or else its backend asked it to slow down.
-/

namespace TenantGate

namespace PushRemap

/-- Statuses that do not reach the sender of a push. -/
def Withheld (status : Status) : Prop := status = 429 ∨ 500 ≤ status ∧ status ≤ 599

instance (status : Status) : Decidable (Withheld status) :=
  inferInstanceAs (Decidable (status = 429 ∨ 500 ≤ status ∧ status ≤ 599))

/-- What the sender of a push is told in their place. -/
def substitute (status : Status) : Status := if status = 429 then 503 else 409

theorem isPushPath_iff {path : String} :
    isPushPath path = true ↔ "/api/v1/push".toList <+: path.toList :=
  String.startsWith_string_iff

theorem remapped?_of_withheld {status : Status} (h : Withheld status) :
    remapped? status = some (substitute status) := by
  by_cases hslow : status = 429
  · simp [remapped?, substitute, hslow]
  · have hrange := h.resolve_left hslow
    simp [remapped?, substitute, hslow, Status.isServerError, hrange]

theorem remapped?_of_not_withheld {status : Status} (h : ¬Withheld status) :
    remapped? status = none := by
  obtain ⟨hslow, hrange⟩ := not_or.1 h
  have hother : Status.isServerError status = false := by
    simpa [Status.isServerError] using hrange
  simp [remapped?, hslow, hother]

/-- No status is passed on that would have been withheld, unless it stands for another one. -/
theorem eq_of_withheld_substitute {status : Status} (h : Withheld (substitute status)) :
    status = 429 := by
  by_contra hslow
  rw [substitute, if_neg hslow] at h
  exact absurd h (by decide)

end PushRemap

namespace HopByHop

/-- The same values of every name, but none of a name of a single connection. -/
def Passes (name : String) (h out : Headers) : Prop :=
  out.values name = if name ∈ standardNames ∨ Listed h name then [] else h.values name

end HopByHop

namespace TenantProxy

open PushRemap

/-- The answer itself, without the fields of its connection. -/
structure IsRelayed (answer client : Response) : Prop where
  status : client.status = answer.status
  body : client.body = answer.body
  headers : ∀ name, HopByHop.Passes name answer.headers client.headers

/-- An answer with another status, which its body begins with.  Of a body that breaks off nothing is
left. -/
structure IsChanged (answer client : Response) : Prop where
  status : client.status = substitute answer.status
  read : ∀ bytes, answer.body.read? = some bytes → client.body = ⟨Bytes.ofText
    (Nat.repr answer.status ++ "-to-" ++ Nat.repr client.status ++ ": ") ++ bytes, true⟩
  broken : answer.body.read? = none → client.body = ⟨[], true⟩
  length : client.headers.values "content-length"
    = [Bytes.ofText (Nat.repr client.body.bytes.length)]
  headers : ∀ name, name ≠ "content-length" → HopByHop.Passes name answer.headers client.headers

/-- The proxy changes answers with the status to requests for the path, which is the path as the
client wrote it. -/
def Changes (p : TenantProxy) (path : String) (status : Status) : Prop :=
  p.remapsPushes = true ∧ "/api/v1/push".toList <+: path.toList ∧ Withheld status

instance (p : TenantProxy) (path : String) (status : Status) : Decidable (p.Changes path status) :=
  inferInstanceAs (Decidable (_ ∧ _ ∧ _))

section Relay

variable {p : TenantProxy} {path : String} {answer : Response}

theorem relay_of_not_changes (h : ¬p.Changes path answer.status) :
    p.relay path answer = { answer with headers := HopByHop.filter answer.headers } := by
  by_cases hp : p.remapsPushes = true
  · have hkept : isPushPath path = false ∨ remapped? answer.status = none := by
      by_cases hpath : "/api/v1/push".toList <+: path.toList
      · exact .inr (remapped?_of_not_withheld fun hs => h ⟨hp, hpath, hs⟩)
      · exact .inl (Bool.eq_false_iff.2 fun heq => hpath (isPushPath_iff.1 heq))
    rcases hkept with hkept | hkept <;> simp [relay, hp, remap, hkept]
  · simp [relay, hp]

theorem relay_of_changes (h : p.Changes path answer.status) :
    p.relay path answer =
      let bytes := PushRemap.body answer.status (substitute answer.status) answer.body
      { status := substitute answer.status
        headers := (HopByHop.filter answer.headers).insert .contentLength
          (Bytes.ofText (Nat.repr bytes.length))
        body := ⟨bytes, true⟩ } := by
  obtain ⟨hp, hpath, hs⟩ := h
  simp [relay, hp, remap, isPushPath_iff.2 hpath, remapped?_of_withheld hs]

theorem isRelayed_relay (h : ¬p.Changes path answer.status) :
    IsRelayed answer (p.relay path answer) := by
  rw [relay_of_not_changes h]
  exact ⟨rfl, rfl, HopByHop.values_filter_eq _⟩

theorem isChanged_relay (h : p.Changes path answer.status) :
    IsChanged answer (p.relay path answer) := by
  rw [relay_of_changes h]
  refine ⟨rfl, ?_, ?_, by simp, ?_⟩
  · intro bytes hbytes
    simp [PushRemap.body, hbytes]
  · intro hbroken
    simp [PushRemap.body, hbroken]
  · intro name hname
    have hkept := HopByHop.values_filter_eq answer.headers name
    have hlength : HeaderName.contentLength.text ≠ name := hname.symm
    rw [HopByHop.Passes, Headers.values_insert, if_neg hlength, hkept]

end Relay

/-- The backend that a request is sent to gives an answer, and not to a switch of protocols. -/
structure Answers (p : TenantProxy) (moment : Moment) (request : Request) (sent : OutboundRequest)
    (answer : Response) : Prop where
  sends : ∃ tenant, p.resolver.resolve moment.now request = .ok tenant ∧
    p.outbound tenant request = .ok sent
  answers : moment.network [sent] = .ok answer
  stays : answer.status ≠ 101

variable {p : TenantProxy} {moment : Moment} {request : Request}

theorem handler_of_answers {sent : OutboundRequest} {answer : Response}
    (h : p.Answers moment request sent answer) :
    p.handler moment request = { response := p.relay request.uri.path answer, sent := [sent] } := by
  obtain ⟨tenant, hresolve, houtbound⟩ := h.sends
  simp [handler, hresolve, forward, houtbound, h.answers, answerReply, h.stays]

theorem status_switchReply (requested : Option Bytes) (answer : Response)
    (sent : List OutboundRequest) :
    (switchReply requested answer sent).response.status = answer.status ∨
      ∃ e : ForwardError, (switchReply requested answer sent).response = e.response ∧
        e.status = 502 := by
  unfold switchReply
  dsimp only
  split
  · exact .inl rfl
  · exact .inr ⟨_, rfl, rfl⟩

structure Switches (p : TenantProxy) (moment : Moment) (request : Request) (sent : OutboundRequest)
    (answer : Response) : Prop where
  sends : ∃ tenant, p.resolver.resolve moment.now request = .ok tenant ∧
    p.outbound tenant request = .ok sent
  answers : moment.network [sent] = .ok answer
  switches : answer.status = 101

theorem handler_of_switches {sent : OutboundRequest} {answer : Response}
    (h : p.Switches moment request sent answer) :
    p.handler moment request
      = switchReply (HopByHop.upgrade? request.headers) answer [sent] := by
  obtain ⟨tenant, hresolve, houtbound⟩ := h.sends
  simp [handler, hresolve, forward, houtbound, h.answers, answerReply, h.switches]

/-- What a request comes to: it is refused, the gateway says what went wrong, the backend switches
protocols, or its answer is relayed. -/
theorem handler_forms (p : TenantProxy) (moment : Moment) (request : Request) :
    (∃ e : AuthError, p.handler moment request = { response := e.response }) ∨
      (∃ (e : ForwardError) (sent : List OutboundRequest), (e.status = 400 ∨ e.status = 502) ∧
        p.handler moment request = { response := e.response, sent := sent }) ∨
      (∃ sent answer, p.Switches moment request sent answer) ∨
      ∃ sent answer, p.Answers moment request sent answer := by
  cases hresolve : p.resolver.resolve moment.now request with
  | error e => exact .inl ⟨e, by simp [handler, hresolve]⟩
  | ok tenant =>
    right
    cases houtbound : p.outbound tenant request with
    | error e =>
      have hstatus : e.status = 400 ∨ e.status = 502 := by
        cases e with
        | target e => cases e <;> simp [ForwardError.status, Proxy.TargetError.status]
        | invalidTenant | send | unexpectedUpgrade => simp [ForwardError.status]
      exact .inl ⟨e, [], hstatus, by simp [handler, hresolve, forward, houtbound]⟩
    | ok sent =>
      cases hanswer : moment.network [sent] with
      | error failure =>
        refine .inl ⟨.send failure, [sent], .inr rfl, ?_⟩
        simp [handler, hresolve, forward, houtbound, hanswer, answerReply]
      | ok answer =>
        by_cases hswitch : answer.status = 101
        · exact .inr (.inl ⟨sent, answer, ⟨tenant, hresolve, houtbound⟩, hanswer, hswitch⟩)
        · exact .inr (.inr ⟨sent, answer, ⟨tenant, hresolve, houtbound⟩, hanswer, hswitch⟩)

theorem handler_cases (p : TenantProxy) (moment : Moment) (request : Request) :
    (p.handler moment request).response.status ∈ [101, 400, 401] ∨
      (∃ e : ForwardError, (p.handler moment request).response = e.response ∧ e.status = 502) ∨
      ∃ sent answer, p.Answers moment request sent answer := by
  rcases handler_forms p moment request with
    ⟨e, h⟩ | ⟨e, sent, hstatus, h⟩ | ⟨sent, answer, hswitches⟩ | ⟨sent, answer, hanswers⟩
  · exact .inl (by simp [h, AuthError.response, Response.text])
  · rcases hstatus with hstatus | hstatus
    · exact .inl (by simp [h, ForwardError.response, Response.text, hstatus])
    · exact .inr (.inl ⟨e, by rw [h], hstatus⟩)
  · rw [handler_of_switches hswitches]
    rcases status_switchReply (HopByHop.upgrade? request.headers) answer [sent] with h | h
    · exact .inl (by simp [h, hswitches.switches])
    · exact .inr (.inl h)
  · exact .inr (.inr ⟨sent, answer, hanswers⟩)

/-- Faults that the gateway tells the sender of a push of: a backend that asked to slow down, and what
kept the gateway from getting an answer. -/
theorem fault_of_push {p : TenantProxy} (hp : p.remapsPushes = true) {moment : Moment}
    {request : Request} (hpath : "/api/v1/push".toList <+: request.uri.path.toList)
    (hfault : 500 ≤ (p.handler moment request).response.status ∧
      (p.handler moment request).response.status ≤ 599) :
    (∃ sent answer, p.Answers moment request sent answer ∧ answer.status = 429 ∧
      (p.handler moment request).response.status = 503) ∨
    ∃ e : ForwardError, (p.handler moment request).response = e.response ∧ e.status = 502 := by
  rcases handler_cases p moment request with h | h | ⟨sent, answer, h⟩
  · simp only [List.mem_cons, List.not_mem_nil, or_false] at h
    rcases h with h | h | h <;> exact absurd (h ▸ hfault) (by decide)
  · exact .inr h
  · rw [handler_of_answers h] at hfault ⊢
    by_cases hs : Withheld answer.status
    · have hstatus : (p.relay request.uri.path answer).status = substitute answer.status := by
        rw [relay_of_changes ⟨hp, hpath, hs⟩]
      have hslow : answer.status = 429 := by
        rw [hstatus] at hfault
        exact eq_of_withheld_substitute (.inr hfault)
      exact .inl ⟨sent, answer, h, hslow, by rw [hstatus, hslow]; rfl⟩
    · have hstatus : (p.relay request.uri.path answer).status = answer.status := by
        rw [relay_of_not_changes fun hchanges => hs hchanges.2.2]
      rw [hstatus] at hfault
      exact absurd (.inr hfault) hs

/-- A client gets the answer of the backend, changed if it is one to a push that is to be given up,
and such a client is told of a fault of the server by the gateway only. -/
theorem relays_answers (p : TenantProxy) (moment : Moment) (request : Request) :
    (∀ sent answer, p.Answers moment request sent answer →
      (¬p.Changes request.uri.path answer.status →
        IsRelayed answer (p.handler moment request).response) ∧
      (p.Changes request.uri.path answer.status →
        IsChanged answer (p.handler moment request).response)) ∧
    (p.remapsPushes = true → "/api/v1/push".toList <+: request.uri.path.toList →
      500 ≤ (p.handler moment request).response.status ∧
        (p.handler moment request).response.status ≤ 599 →
      (∃ sent answer, p.Answers moment request sent answer ∧ answer.status = 429 ∧
        (p.handler moment request).response.status = 503) ∨
      ∃ e : ForwardError, (p.handler moment request).response = e.response ∧ e.status = 502) := by
  constructor
  · intro sent answer h
    rw [handler_of_answers h]
    exact ⟨isRelayed_relay, isChanged_relay⟩
  · intro hp hpath hfault
    exact fault_of_push hp hpath hfault

namespace Sample

def distributor : TenantProxy where
  resolver := { policy := .fixed "t" }
  backend := { scheme := "http", authority := some { host := "127.0.0.1" }, path := "/" }
  remapsPushes := true

def hop : HeaderName := ⟨"x-hop", by decide +kernel⟩

def slowDown : Response where
  status := 429
  headers := ⟨[(.connection, Bytes.ofText "close, X-Hop"), (hop, Bytes.ofText "1"),
    (.contentLength, Bytes.ofText "9"), (.contentType, Bytes.ofText "text/plain")]⟩
  body := .ofText "slow down"

def throttling : Moment := ⟨0, fun _ => .ok slowDown⟩

def post (path : String) : Request := { method := "POST", uri := ⟨none, none, path, none⟩ }

def sent (path : String) : OutboundRequest :=
  ⟨"POST", ⟨some "http", some "127.0.0.1", path, none⟩,
    ⟨[(Resolver.tenantHeader, Bytes.ofText "t")]⟩, {}⟩

end Sample

/-- A push is told of the backend that asks to slow down, and a query is given the answer itself. -/
theorem relays_answers_of_slow_down :
    (Sample.distributor.Answers Sample.throttling (Sample.post "/api/v1/push")
        (Sample.sent "/api/v1/push") Sample.slowDown ∧
      IsChanged Sample.slowDown
        (Sample.distributor.handler Sample.throttling (Sample.post "/api/v1/push")).response ∧
      (Sample.distributor.handler Sample.throttling (Sample.post "/api/v1/push")).response.status
        = 503) ∧
    Sample.distributor.Answers Sample.throttling (Sample.post "/api/v1/query")
        (Sample.sent "/api/v1/query") Sample.slowDown ∧
      IsRelayed Sample.slowDown
        (Sample.distributor.handler Sample.throttling (Sample.post "/api/v1/query")).response := by
  have push : Sample.distributor.Answers Sample.throttling (Sample.post "/api/v1/push")
      (Sample.sent "/api/v1/push") Sample.slowDown :=
    ⟨⟨"t", rfl, by decide +kernel⟩, rfl, by decide⟩
  have query : Sample.distributor.Answers Sample.throttling (Sample.post "/api/v1/query")
      (Sample.sent "/api/v1/query") Sample.slowDown :=
    ⟨⟨"t", rfl, by decide +kernel⟩, rfl, by decide⟩
  obtain ⟨relays, faults⟩ :=
    relays_answers Sample.distributor Sample.throttling (Sample.post "/api/v1/push")
  have changed := (relays _ _ push).2 (by decide +kernel)
  have fault : 500 ≤ substitute Sample.slowDown.status ∧ substitute Sample.slowDown.status ≤ 599 := by
    decide
  rw [← changed.status] at fault
  refine ⟨⟨push, changed, ?_⟩, query, ?_⟩
  · rcases faults rfl (by decide +kernel) fault with ⟨_, _, _, _, h⟩ | ⟨e, h, he⟩
    · exact h
    · have hstatus : (ForwardError.response e).status = 502 := he
      rw [← h, changed.status] at hstatus
      exact absurd hstatus (by decide)
  · exact ((relays_answers _ _ _).1 _ _ query).1 (by decide +kernel)

end TenantProxy
end TenantGate
