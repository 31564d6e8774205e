import TenantGate.Deflate.Zlib
import TenantGate.Ingest.ContentType
import TenantGate.Ingest.RemoteWrite
import TenantGate.Router.Dispatch
import TenantGate.Series.Submission
/-!
# Taking submissions

A submission is a document of fragments or of service checks.  Its tenant, its type, its body and
its content are checked in this order; what passes is sent on as series, all of it or nothing.
-/

namespace TenantGate

inductive Submission
  | series
  | checkRun
  deriving DecidableEq, Repr

namespace Submission

def path : Submission → String
  | .series => "/api/v1/series"
  | .checkRun => "/api/v1/check_run"

def timeSeries : Submission → Bytes → Except DocumentError (List TimeSeries)
  | .series => seriesOfFragments
  | .checkRun => seriesOfChecks

end Submission

inductive IngestError
  | unauthorized (error : AuthError)
  | contentType (error : ContentTypeError)
  | unreadableBody
  | deflate (fault : Deflate.Fault)
  | document (error : DocumentError)
  | write (error : WriteError)
  deriving DecidableEq, Repr

namespace IngestError

def status : IngestError → Status
  | .unauthorized _ => 401
  | .contentType _ => 400
  | .unreadableBody => 500
  | .deflate _ => 400
  | .document _ => 400
  | .write _ => 500

def messages : IngestError → String × List String
  | .unauthorized e => (e.message, [])
  | .contentType .missing => ("bad request: request lacks content-type header", [])
  | .contentType .unexpected =>
    ("bad request: unexpected content-type header (expecting: application/json)", [])
  | .unreadableBody => ("error while reading request body: error reading a body from connection",
      ["error reading a body from connection", "end of file before message length reached"])
  | .deflate f =>
    ("bad request: error while zlib-decoding request body: " ++ f.message, [f.message])
  | .document e =>
    ("bad request: error while translating body: " ++ e.message, e.message :: e.causes)
  | .write e => (e.message, [])

def message (e : IngestError) : String := Causes.describe e.messages.1 e.messages.2

def response (e : IngestError) : Response := .text e.status e.message

end IngestError

/-- Where submissions go, and for whom. -/
structure Ingest where
  resolver : Resolver
  endpoint : RemoteWrite
  deriving DecidableEq, Repr

namespace Ingest

def isDeflated (headers : Headers) : Bool :=
  headers.get? "content-encoding" == some (Bytes.ofText "deflate")

def document (headers : Headers) (body : Body) : Except IngestError Bytes :=
  match body.read? with
  | none => .error .unreadableBody
  | some bytes =>
    if isDeflated headers then (Zlib.decode bytes).mapError .deflate else .ok bytes

def accept (i : Ingest) (kind : Submission) (now : Int) (request : Request) :
    Except IngestError (String × List TimeSeries) := do
  let tenant ← (i.resolver.resolve now request).mapError .unauthorized
  (ContentType.check request.headers).mapError .contentType
  let doc ← document request.headers request.body
  let series ← (kind.timeSeries doc).mapError .document
  return (tenant, series)

def accepted : Response where
  status := 202
  headers := ⟨[(.contentType, Bytes.ofText "application/json")]⟩
  body := .ofText "\x7b\"status\": \"ok\"\x7d"

def handler (i : Ingest) (kind : Submission) : Handler := fun moment request =>
  match i.accept kind moment.now request with
  | .error e => { response := e.response }
  | .ok (tenant, series) =>
    let delivery := i.endpoint.write moment.network tenant series
    match delivery.result with
    | .ok () => { response := accepted, sent := delivery.sent }
    | .error e => { response := (IngestError.write e).response, sent := delivery.sent }

end Ingest
end TenantGate
