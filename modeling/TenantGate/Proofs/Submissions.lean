import Mathlib.Tactic.Common
import TenantGate.Ingest.Handler
import TenantGate.Proofs.Redirects
import TenantGate.Proofs.Results
/-!
# Submissions are sent on whole or not at all

A submission passes six stages in order, and the first one that it does not pass gives the status of
the response.  Only what passes the first five is sent on; then all of its series go out in one
request, unless the answer to it asks for more.
-/

namespace TenantGate

namespace IngestError

end IngestError

namespace Ingest

/-- A document is what a body holds, or what it inflates to. -/
def IsDocument (request : Request) (doc : Bytes) : Prop :=
  ∃ bytes, request.body.read? = some bytes ∧
    if request.headers.get? "content-encoding" = some (Bytes.ofText "deflate")
      then Zlib.decode bytes = .ok doc
      else doc = bytes

/-- A submission has a tenant, and its document stands for series. -/
structure Admits (i : Ingest) (kind : Submission) (now : Int) (request : Request) (tenant : String)
    (series : List TimeSeries) : Prop where
  resolves : i.resolver.resolve now request = .ok tenant
  typed : ContentType.check request.headers = .ok ()
  translates : ∃ doc, IsDocument request doc ∧ kind.timeSeries doc = .ok series

/-- The series were sent, and an answer was read to its end. -/
def Delivers (i : Ingest) (kind : Submission) (moment : Moment) (request : Request) : Prop :=
  ∃ tenant series leg, i.Admits kind moment.now request tenant series ∧
    i.endpoint.firstLeg? tenant series = some leg ∧
    leg.Reads moment.network RemoteWrite.maxRedirects

inductive Stage
  | tenant
  | contentType
  | body
  | inflation
  | translation
  | delivery
  deriving DecidableEq, Repr

namespace Stage

def all : List Stage := [tenant, contentType, body, inflation, translation, delivery]

def status : Stage → Status
  | tenant => 401
  | contentType => 400
  | body => 500
  | inflation => 400
  | translation => 400
  | delivery => 500

end Stage

variable {i : Ingest} {kind : Submission} {moment : Moment} {now : Int} {request : Request}
  {tenant : String} {series : List TimeSeries} {doc : Bytes}

variable (i kind moment request) in
def Passes : Stage → Prop
  | .tenant => ∃ tenant, i.resolver.resolve moment.now request = .ok tenant
  | .contentType => ContentType.check request.headers = .ok ()
  | .body => ∃ bytes, request.body.read? = some bytes
  | .inflation => ∃ doc, IsDocument request doc
  | .translation => ∃ doc series, IsDocument request doc ∧ kind.timeSeries doc = .ok series
  | .delivery => i.Delivers kind moment request

theorem document_eq_ok_iff :
    document request.headers request.body = .ok doc ↔ IsDocument request doc := by
  unfold document IsDocument isDeflated
  cases request.body.read? with
  | none => simp
  | some bytes =>
    simp only [beq_iff_eq, Option.some.injEq, exists_eq_left']
    split
    · exact Result.mapError_eq_ok
    · simp only [Except.ok.injEq, eq_comm]

theorem accept_eq_ok_iff :
    i.accept kind now request = .ok (tenant, series) ↔
      i.Admits kind now request tenant series := by
  simp only [accept, Result.bind_eq_ok, Result.mapError_eq_ok, Result.pure_eq_ok, Prod.mk.injEq,
    document_eq_ok_iff]
  constructor
  · rintro ⟨_, hresolve, _, htyped, doc, hdoc, _, hseries, rfl, rfl⟩
    exact ⟨hresolve, htyped, doc, hdoc, hseries⟩
  · rintro ⟨hresolve, htyped, doc, hdoc, hseries⟩
    exact ⟨tenant, hresolve, (), htyped, doc, hdoc, series, hseries, rfl, rfl⟩

theorem handler_of_refused {e : IngestError} (h : i.accept kind moment.now request = .error e) :
    i.handler kind moment request = { response := e.response } := by
  simp only [handler, h]

theorem handler_of_failure (h : i.Admits kind moment.now request tenant series) {e : WriteError}
    (hwrite : (i.endpoint.write moment.network tenant series).result = .error e) :
    i.handler kind moment request
      = { response := (IngestError.write e).response
          sent := (i.endpoint.write moment.network tenant series).sent } := by
  simp only [handler, accept_eq_ok_iff.2 h, hwrite]

theorem handler_of_success (h : i.Admits kind moment.now request tenant series)
    (hwrite : (i.endpoint.write moment.network tenant series).result = .ok ()) :
    i.handler kind moment request
      = { response := accepted
          sent := (i.endpoint.write moment.network tenant series).sent } := by
  simp only [handler, accept_eq_ok_iff.2 h, hwrite]

theorem sent_handler (h : i.Admits kind moment.now request tenant series) :
    (i.handler kind moment request).sent
      = (i.endpoint.write moment.network tenant series).sent := by
  cases hwrite : (i.endpoint.write moment.network tenant series).result with
  | error e => rw [handler_of_failure h hwrite]
  | ok => rw [handler_of_success h hwrite]

theorem Admits.unique (h : i.Admits kind now request tenant series) {tenant' : String}
    {series' : List TimeSeries} (h' : i.Admits kind now request tenant' series') :
    tenant' = tenant ∧ series' = series := by
  have same := (accept_eq_ok_iff.2 h').symm.trans (accept_eq_ok_iff.2 h)
  cases same
  exact ⟨rfl, rfl⟩

namespace Sample

def endpoint : RemoteWrite where
  url := { scheme := "http", authority := some { host := "127.0.0.1" }, path := "/api/v1/push" }

def ingest : Ingest := ⟨⟨.fixed "prod", none, .apiKeyQuery⟩, endpoint⟩

def submitted : Request where
  method := "POST"
  uri := ⟨none, none, "/api/v1/series", none⟩
  headers := ⟨[(.contentType, Bytes.ofText "application/json")]⟩
  body := .ofText "\x7b\"series\": [\x7b\"metric\": \"up\", \"points\": [[1, 0]]\x7d]\x7d"

def up : List TimeSeries := [⟨[⟨"__name__", "up"⟩, ⟨"job", "ddagent"⟩], [⟨1000, .ofInt 0⟩]⟩]

def refusing : Network := fun _ => .ok { status := 429 }

def location : HeaderName := ⟨"location", by decide +kernel⟩

/-- A network whose first answer leads to another path, in whole answers too. -/
def elsewhere : Network
  | [_] => .ok { status := 307, headers := ⟨[(location, Bytes.ofText "/other")]⟩ }
  | _ => .ok { status := 200 }

end Sample

end Ingest
end TenantGate
