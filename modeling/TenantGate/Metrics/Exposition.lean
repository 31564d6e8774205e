import TenantGate.Metrics.Registry
import TenantGate.Metrics.Sketch
/-!
# The text in which metrics are read

Each metric has lines of its own: what it is, and for each list of labels its numbers.  A histogram
shows how many values lie at or below each bound, any other metric some quantiles; both show the
sum and the number of the values.
-/

namespace TenantGate
namespace Exposition

def isNameStart (c : Char) : Bool := c.isAlpha || c == '_' || c == ':'

def isNameChar (c : Char) : Bool := isNameStart c || c.isDigit

/-- A name in which each character that may not stand in its place is an underscore. -/
def metricName (name : String) : String :=
  match name.toList with
  | [] => ""
  | c :: s => String.ofList
      ((if isNameStart c then c else '_') :: s.map fun d => if isNameChar d then d else '_')

/-- A text with quotes, backslashes and line ends escaped.  A backslash before a quote or before
another backslash counts as an escape that is already there; `held` is such a backslash. -/
def escapeFrom (quotes held : Bool) : List Char → List Char
  | [] => if held then ['\\', '\\'] else []
  | c :: s =>
    if c = '\n' then '\\' :: 'n' :: escapeFrom quotes held s
    else if c = '"' ∧ quotes then '\\' :: '"' :: escapeFrom quotes false s
    else if c = '\\' then
      if held then '\\' :: '\\' :: escapeFrom quotes false s else escapeFrom quotes true s
    else if held then '\\' :: '\\' :: c :: escapeFrom quotes false s
    else c :: escapeFrom quotes false s

def labelValue (s : String) : String := String.ofList (escapeFrom true false s.toList)

def description (s : String) : String := String.ofList (escapeFrom false false s.toList)

def labelText (l : String × String) : String := l.1 ++ "=\"" ++ labelValue l.2 ++ "\""

/-- The last of several labels of one name counts, in the place of the first. -/
def lastValues (labels : Labels) : Labels :=
  (labels.map (·.1)).eraseDups.map fun name =>
    (name, ((labels.filter fun l => l.1 == name).getLast?.map (·.2)).getD "")

def labelTexts (labels : Labels) : List String := (lastValues labels).map labelText

def line (name : String) (labels : List String) (value : String) : String :=
  (if labels.isEmpty then name
    else name ++ "\x7b" ++ String.intercalate "," labels ++ "\x7d") ++ " " ++ value

def sum (values : List Binary64) : Binary64 :=
  .ofFloat (values.foldl (fun total x => total + x.toFloat) 0.0)

def countUpTo (bound : Binary64) (values : List Binary64) : Nat :=
  values.countP fun x => x.toFloat ≤ bound.toFloat

def sumLine (name : String) (labels : List String) (values : List Binary64) : String :=
  line (name ++ "_sum") labels (sum values).plainText

def countLine (name : String) (labels : List String) (values : List Binary64) : String :=
  line (name ++ "_count") labels (Nat.repr values.length)

def bucketLine (name : String) (labels : List String) (bound : String) (count : Nat) : String :=
  line (name ++ "_bucket") (labels ++ ["le=\"" ++ bound ++ "\""]) (Nat.repr count)

def histogramLines (name : String) (bounds : List Binary64) (labels : List String)
    (values : List Binary64) : List String :=
  bounds.map (fun b => bucketLine name labels b.plainText (countUpTo b values))
    ++ [bucketLine name labels "+Inf" values.length, sumLine name labels values,
      countLine name labels values]

def quantiles : List (String × Float) :=
  [("0", 0.0), ("0.5", 0.5), ("0.9", 0.9), ("0.95", 0.95), ("0.99", 0.99), ("0.999", 0.999),
    ("1", 1.0)]

def summaryLines (name : String) (labels : List String) (values : List Binary64) : List String :=
  quantiles.map (fun q => line name (labels ++ ["quantile=\"" ++ q.1 ++ "\""])
      (Binary64.ofFloat (Sketch.quantile values q.2)).plainText)
    ++ [sumLine name labels values, countLine name labels values]

/-- The values of a metric by the text of their labels. -/
def groups (observations : List Observation) (name : String) :
    List (List String × List Binary64) :=
  let own := observations.filter fun o => metricName o.metric == name
  (own.map fun o => labelTexts o.labels).eraseDups.map fun labels =>
    (labels, (own.filter fun o => labelTexts o.labels == labels).map (·.value))

def find? {α : Type} (entries : List (String × α)) (name : String) : Option α :=
  ((entries.filter fun e => metricName e.1 == name).getLast?).map (·.2)

def metricLines (r : Registry) (name : String) : List String :=
  let help := match find? r.descriptions name with
    | some d => ["# HELP " ++ name ++ " " ++ description d]
    | none => []
  match find? r.histograms name with
  | some bounds => help ++ ["# TYPE " ++ name ++ " histogram"]
      ++ (groups r.observations name).flatMap fun g => histogramLines name bounds g.1 g.2
  | none => help ++ ["# TYPE " ++ name ++ " summary"]
      ++ (groups r.observations name).flatMap fun g => summaryLines name g.1 g.2

/-- The lines of all metrics of which a value was observed. -/
def lines (r : Registry) : List String :=
  ((r.observations.map fun o => metricName o.metric).eraseDups).flatMap (metricLines r)

end Exposition
end TenantGate
