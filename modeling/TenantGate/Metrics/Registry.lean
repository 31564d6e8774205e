import TenantGate.Metrics.Definition
/-!
# Observed values

A registry knows which metrics are histograms and how they are described, and keeps every value
that was observed, in order, with the labels under which it counts.
-/

namespace TenantGate

abbrev Labels := List (String × String)

structure Observation where
  metric : String
  labels : Labels
  value : Binary64
  deriving DecidableEq, Repr

structure Registry where
  /-- The bounds of the buckets of each histogram. -/
  histograms : List (String × List Binary64) := []
  descriptions : List (String × String) := []
  observations : List Observation := []
  deriving DecidableEq, Repr

namespace Registry

def ofSpace (space : String) : Registry where
  histograms :=
    [(MetricDefinition.requestDuration.nameIn space, MetricDefinition.requestDuration.bounds)]

def describe (r : Registry) (space : String) : Registry :=
  let d := MetricDefinition.requestDuration
  { r with descriptions := r.descriptions ++ [(d.nameIn space, d.description)] }

def observe (r : Registry) (o : Observation) : Registry :=
  { r with observations := r.observations ++ [o] }

end Registry
end TenantGate
