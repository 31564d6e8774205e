import TenantGate.Json.Read
import TenantGate.Series.Labels
/-!
# Submissions of the metrics agent

The agent submits fragments of series and service checks as JSON documents.  A document is read as
a whole or refused as a whole; each fragment with a point becomes one series, and so does each
check.
-/

namespace TenantGate

/-- A document that could not be read, with the reason and the place in it. -/
inductive DocumentError
  | invalidJson (reason : String)
  deriving DecidableEq, Repr

def DocumentError.message : DocumentError → String
  | .invalidJson reason => "invalid JSON doc: " ++ reason

/-- The reason is also told on its own. -/
def DocumentError.causes : DocumentError → List String
  | .invalidJson reason => [reason]

structure Point where
  seconds : Int
  value : Binary64
  deriving DecidableEq, Repr

structure Fragment where
  metric : Option String := none
  points : Option (List Point) := none
  tags : Option (List String) := none
  host : Option String := none
  device : Option String := none
  metricType : Option String := none
  interval : Option Int := none
  sourceTypeName : Option String := none
  deriving DecidableEq, Repr

structure ServiceCheck where
  check : Option String := none
  hostName : Option String := none
  timestamp : Option Int := none
  status : Option Int := none
  message : Option String := none
  tags : Option (List String) := none
  deriving DecidableEq, Repr

open Json

namespace Point

def wanted : String := "a [timestamp, value] array of length 2"

/-- The next element of a point of which `count` elements have been read. -/
def element {α : Type} (count : Nat) (item : Reader α) : Reader α := fun s => do
  let (more, s) ← hasElement (count == 0) s
  if more then item s else faultAfterList (.wrongLength count wanted) s

def read : Reader Point :=
  bracketed wanted fun whole s => do
    let (seconds, s) ← element 0 int64 s
    let (value, s) ← element 1 double s
    let (surplus, s) ← elements ignored whole false s
    if surplus.isEmpty then return (⟨seconds, value⟩, s)
    else faultAfterList (.wrongLength (2 + surplus.length) wanted) s

end Point

namespace Fragment

def members : List (Member Fragment) := [
  optionalMember "metric" text fun f x => { f with metric := x },
  optionalMember "points" (list Point.read) fun f x => { f with points := x },
  optionalMember "tags" (list text) fun f x => { f with tags := x },
  optionalMember "host" text fun f x => { f with host := x },
  optionalMember "device" text fun f x => { f with device := x },
  optionalMember "type" text fun f x => { f with metricType := x },
  optionalMember "interval" int64 fun f x => { f with interval := x },
  optionalMember "source_type_name" text fun f x => { f with sourceTypeName := x }]

def read : Reader Fragment := record "struct SeriesFragment" members {} .ok

/-- A submission has one member, the fragments, which may be missing in every form. -/
def readSubmission : Reader (List Fragment) :=
  let series : Member (Option (List Fragment)) :=
    { optionalMember "series" (list read) fun _ x => x with absent := some }
  record "struct SeriesSubmission" [series] none fun x => .ok (x.getD [])

def readAll (doc : Bytes) : Except String (List Fragment) :=
  (document (optional readSubmission) doc).map fun x => x.getD []

end Fragment

namespace ServiceCheck

def members : List (Member ServiceCheck) := [
  optionalMember "check" text fun c x => { c with check := x },
  optionalMember "host_name" text fun c x => { c with hostName := x },
  optionalMember "timestamp" int64 fun c x => { c with timestamp := x },
  optionalMember "status" int64 fun c x => { c with status := x },
  optionalMember "message" text fun c x => { c with message := x },
  optionalMember "tags" (list text) fun c x => { c with tags := x }]

def read : Reader ServiceCheck := record "struct ServiceCheck" members {} .ok

def readAll (doc : Bytes) : Except String (List ServiceCheck) :=
  (document (optional (list read)) doc).map fun x => x.getD []

end ServiceCheck

namespace Fragment

/-- The agent marks with this a metric that it keeps out of its own index. -/
def indexMark : List Char := "n_o_i_n_d_e_x.".toList

def unmarked (metric : String) : String :=
  match indexMark.isPrefixOf? metric.toList with
  | some rest => String.ofList rest
  | none => metric

def interval? (f : Fragment) : Option Int := f.interval.filter (· != 0)

def labels (f : Fragment) : LabelMap :=
  let named := LabelMap.base (unmarked (f.metric.getD "")) (f.host.getD "")
  let timed := match f.interval? with
    | some n => named.insert "interval" (toString n)
    | none => named
  let typed := ((timed.insert "device" (f.device.getD "")).insert "type"
    (f.metricType.getD "")).insert "source_type_name" (f.sourceTypeName.getD "")
  LabelMap.insertTags typed (f.tags.getD [])

/-- Points with equal times keep their order. -/
def samples (points : List Point) : List Sample :=
  (points.mergeSort fun p q => p.seconds ≤ q.seconds).map fun p => .atSeconds p.seconds p.value

/-- The series of a fragment; a fragment without points has none. -/
def series? (f : Fragment) : Option TimeSeries :=
  match f.points.getD [] with
  | [] => none
  | points => some ⟨LabelMap.written f.labels, samples points⟩

end Fragment

def ServiceCheck.series (c : ServiceCheck) : TimeSeries :=
  let named := LabelMap.base (c.check.getD "") (c.hostName.getD "")
  ⟨LabelMap.written (LabelMap.insertTags named (c.tags.getD [])),
    [.atSeconds (c.timestamp.getD 0) (.ofInt (c.status.getD 0))]⟩

def seriesOfFragments (doc : Bytes) : Except DocumentError (List TimeSeries) :=
  match Fragment.readAll doc with
  | .ok fragments => .ok (fragments.filterMap Fragment.series?)
  | .error reason => .error (.invalidJson reason)

def seriesOfChecks (doc : Bytes) : Except DocumentError (List TimeSeries) :=
  match ServiceCheck.readAll doc with
  | .ok checks => .ok (checks.map ServiceCheck.series)
  | .error reason => .error (.invalidJson reason)

end TenantGate
