import TenantGate.Http.Message
/-!
# Answers to pushes

A sender of samples gives up after some statuses and tries again after others.  On push paths the
statuses of a backend are changed so that a push that will keep failing is given up.
-/

namespace TenantGate
namespace PushRemap

def pathPrefix : String := "/api/v1/push"

def isPushPath (path : String) : Bool := path.startsWith pathPrefix

/-- The status that stands for a given one on a push path. -/
def remapped? (status : Status) : Option Status :=
  if status = 429 then some 503
  else if Status.isServerError status then some 409
  else none

/-- The body of a changed answer begins with both statuses; a body that breaks off is dropped. -/
def body (sent changed : Status) (b : Body) : Bytes :=
  match b.read? with
  | some bytes => Bytes.ofText (Nat.repr sent ++ "-to-" ++ Nat.repr changed ++ ": ") ++ bytes
  | none => []

/-- The answer to a request for `path`, which is the path as the client wrote it. -/
def remap (path : String) (r : Response) : Response :=
  match isPushPath path, remapped? r.status with
  | true, some changed =>
    let bytes := body r.status changed r.body
    { status := changed
      headers := r.headers.insert .contentLength (Bytes.ofText (Nat.repr bytes.length))
      body := ⟨bytes, true⟩ }
  | _, _ => r

end PushRemap
end TenantGate
