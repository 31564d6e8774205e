import TenantGate.Router.Dispatch
/-!
# Requests under way

A request that a route handler answered counts when its response is done with, be it that the body
was read to its end, that it broke off or that it was dropped.  Responses are done with in any order.
A request that is given up before it is answered leaves nothing behind.
-/

namespace TenantGate

/-- A router whose metrics endpoint, if there is one, tells of the requests that count. -/
structure MeteredRouter where
  space : String
  routes : List (Route Handler) := []
  endpoint : Option (List (RequestLabels × Binary64) → Handler) := none

def MeteredRouter.router (m : MeteredRouter) (counted : List (RequestLabels × Binary64)) :
    Router Handler :=
  ⟨m.space, m.routes, m.endpoint.map fun tell => tell counted⟩

/-- A response on its way to the client. -/
structure Sending where
  response : Response
  /-- How many bytes of the body were read. -/
  taken : Nat := 0
  /-- The labels under which the request counts in the end, if it does. -/
  labels : Option RequestLabels
  deriving DecidableEq, Repr

inductive BodyEnd
  | read
  | failed
  | dropped
  deriving DecidableEq, Repr

namespace Sending

def isThrough (s : Sending) : Bool := s.response.body.bytes.length ≤ s.taken

/-- A body ends or breaks off after all its bytes, and can be dropped at any time. -/
def mayEnd (s : Sending) : BodyEnd → Bool
  | .read => s.isThrough && s.response.body.complete
  | .failed => s.isThrough && !s.response.body.complete
  | .dropped => true

def take (s : Sending) (count : Nat) : Sending := { s with taken := s.taken + count }

end Sending

/-- What happens to requests and responses; a response is known by its place among those that are
under way. -/
inductive Event
  | answers (moment : Moment) (request : Request)
  | reads (which count : Nat)
  | ends (which : Nat) (how : BodyEnd) (seconds : Binary64)

structure Traffic where
  pending : List Sending := []
  /-- What counts, in the order in which the responses were done with. -/
  counted : List (RequestLabels × Binary64) := []
  deriving DecidableEq, Repr

namespace Traffic

def answer (t : Traffic) (m : MeteredRouter) (moment : Moment) (request : Request) :
    Reply × Traffic :=
  let (reply, labels) := (m.router t.counted).handle moment request
  (reply, { t with pending := t.pending ++ [⟨reply.response, 0, labels⟩] })

/-- A response is done with.  This is the only time at which its request comes to count. -/
def finish (t : Traffic) (which : Nat) (how : BodyEnd) (seconds : Binary64) : Traffic :=
  match t.pending[which]? with
  | none => t
  | some s =>
    if s.mayEnd how then
      ⟨t.pending.eraseIdx which, t.counted ++ s.labels.toList.map (·, seconds)⟩
    else t

def step (m : MeteredRouter) (t : Traffic) : Event → Traffic
  | .answers moment request => (t.answer m moment request).2
  | .reads which count => { t with pending := t.pending.modify which fun s => s.take count }
  | .ends which how seconds => t.finish which how seconds

def run (m : MeteredRouter) (events : List Event) : Traffic := events.foldl (step m) {}

theorem run_append (m : MeteredRouter) (events : List Event) (e : Event) :
    run m (events ++ [e]) = (run m events).step m e := by
  simp [run]

end Traffic
end TenantGate
