import TenantGate.Binary64
/-!
# Time series

A series is a set of labels, written in the order of their names, and samples at times in
milliseconds since the epoch.
-/

namespace TenantGate

structure Label where
  name : String
  value : String
  deriving DecidableEq, Repr

structure Sample where
  timestamp : Int
  value : Binary64
  deriving DecidableEq, Repr

structure TimeSeries where
  labels : List Label
  samples : List Sample
  deriving DecidableEq, Repr

def minInt64 : Int := -0x8000000000000000

def maxInt64 : Int := 0x7fffffffffffffff

/-- The nearest integer of 64 bits with a sign. -/
def clampInt64 (n : Int) : Int := max minInt64 (min maxInt64 n)

theorem clampInt64_mono {m n : Int} (h : m ≤ n) : clampInt64 m ≤ clampInt64 n := by
  unfold clampInt64
  omega

def Sample.atSeconds (seconds : Int) (value : Binary64) : Sample :=
  ⟨clampInt64 (seconds * 1000), value⟩

end TenantGate
