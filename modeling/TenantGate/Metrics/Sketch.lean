import TenantGate.Binary64
/-!
# Quantiles from buckets of growing width

Numbers that differ by less than a fixed ratio are put into one bucket, so that a quantile is known
up to that ratio.  Numbers close to zero share one bucket; the smallest and the largest number are
known exactly.
-/

namespace TenantGate
namespace Sketch

def accuracy : Float := 0.0001

/-- Numbers of at most this size count as zero. -/
def smallest : Float := 1.0e-9

def ratio : Float := 1.0 + (2.0 * accuracy) / (1.0 - accuracy)

def logRatio : Float := Float.log ratio

def key (x : Float) : Int := (x.log / logRatio).ceil.toInt64.toInt

def value (k : Int) : Float := (Float.ofInt k * logRatio).exp * (2.0 / (1.0 + ratio))

/-- The key that comes at a given place in the order of the keys. -/
def keyAt (keys : List Int) (rank : Nat) : Int := ((keys.mergeSort (· ≤ ·))[rank]?).getD 0

def quantile (all : List Binary64) (q : Float) : Float :=
  let xs := (all.map Binary64.toFloat).filter fun x => !x.isInf
  let above := (xs.filter (· > smallest)).map key
  let below := (xs.filter (· < -smallest)).map fun x => key (-x)
  if xs.isEmpty then 0.0
  else if q == 0.0 then xs.foldl (fun m x => if x < m then x else m) (1.0 / 0.0)
  else if q == 1.0 then xs.foldl (fun m x => if m < x then x else m) (-1.0 / 0.0)
  else
    let rank := (q * (Float.ofNat xs.length - 1.0)).toUInt64.toNat
    if rank < below.length then -value (keyAt below (below.length - rank - 1))
    else if rank < xs.length - above.length then 0.0
    else value (keyAt above (rank - (xs.length - above.length)))

end Sketch
end TenantGate
