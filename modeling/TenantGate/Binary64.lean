/-!
# Double-precision numbers

A number is kept as its 64-bit pattern, so that each pattern is a value of its own: a zero has a
sign and a NaN has a payload.  Its decimal text is the shortest one that reads back, which is
found on the grids of ten in exact integer arithmetic.
-/

namespace TenantGate

structure Binary64 where
  bits : UInt64
  deriving DecidableEq, Repr, Inhabited

namespace Binary64

def ofFloat (x : Float) : Binary64 := ⟨x.toBits⟩

def toFloat (x : Binary64) : Float := Float.ofBits x.bits

def zero : Binary64 := ⟨0⟩

def isNegative (x : Binary64) : Bool := x.bits >>> 63 == 1

def exponentField (x : Binary64) : Nat := ((x.bits >>> 52) &&& 0x7ff).toNat

def fractionField (x : Binary64) : Nat := (x.bits &&& 0xfffffffffffff).toNat

def isZero (x : Binary64) : Bool := x.bits <<< 1 == 0

def isFinite (x : Binary64) : Bool := x.exponentField != 0x7ff

def isNaN (x : Binary64) : Bool := x.exponentField == 0x7ff && x.fractionField != 0

/-- The integer nearest in size to the number, to even on a tie. -/
def ofInt (n : Int) : Binary64 :=
  if n < 0 then ofFloat (-(Float.ofNat n.natAbs)) else ofFloat (Float.ofNat n.natAbs)

/-- A finite number is its significand times two to the power of its scale. -/
def significand (x : Binary64) : Nat :=
  if x.exponentField = 0 then x.fractionField else 0x10000000000000 + x.fractionField

def scale (x : Binary64) : Int := (max x.exponentField 1 : Nat) - 1075

end Binary64

/-- `digits` times ten to the power of `exponent`. -/
structure Decimal where
  digits : Nat
  exponent : Int
  deriving DecidableEq, Repr

namespace Binary64

/-- The powers of two and ten by which `c * 10 ^ k` and `x * 2 ^ q` are compared as integers. -/
def gridFactors (q k : Int) : Nat × Nat :=
  (Nat.pow 10 k.toNat * Nat.pow 2 (-q).toNat, Nat.pow 2 q.toNat * Nat.pow 10 (-k).toNat)

/-- The point of the grid `10 ^ k` next to a finite number, if one of its two neighbours there
rounds to it.  Numbers are counted in quarters of the last place; half of the gap below a power of
two is one quarter, and the ends of the interval round to the number when its significand is
even. -/
def neighbour? (x : Binary64) (k : Int) : Option Nat :=
  let m := x.significand
  let (ten, two) := gridFactors (x.scale - 2) k
  let value := 4 * m * two
  let low := (if x.fractionField = 0 ∧ 1 < x.exponentField then 4 * m - 1 else 4 * m - 2) * two
  let high := (4 * m + 2) * two
  let inside := fun c => if m % 2 = 0 then low ≤ c * ten ∧ c * ten ≤ high
    else low < c * ten ∧ c * ten < high
  let below := value / ten
  let above := below + 1
  let nearer := if 2 * value < (below + above) * ten then below
    else if (below + above) * ten < 2 * value then above
    else if below % 2 = 0 then below else above
  if below ≠ 0 ∧ inside below then
    if inside above then some nearer else some below
  else if inside above then some above else none

def firstNeighbour (x : Binary64) : (steps : Nat) → (k : Int) → Decimal
  | 0, k => ⟨0, k⟩
  | n + 1, k =>
    match neighbour? x k with
    | some c => ⟨c, k⟩
    | none => firstNeighbour x n (k - 1)

/-- The shortest decimal that reads back as the size of a finite number other than zero. -/
def shortest (x : Binary64) : Decimal :=
  let top := ((Nat.log2 x.significand + x.scale) * 30103).fdiv 100000 + 1
  firstNeighbour x 24 top

end Binary64

namespace Decimal

/-- Where the point stands: `0.d₁d₂…` times ten to this power. -/
def point (d : Decimal) : Int := (Nat.repr d.digits).length + d.exponent

def zeros (n : Nat) : String := String.ofList (List.replicate n '0')

def positional (d : Decimal) : String :=
  let ds := (Nat.repr d.digits).toList
  if 0 ≤ d.exponent then String.ofList ds ++ zeros d.exponent.toNat
  else if 0 < d.point then
    String.ofList (ds.take d.point.toNat) ++ "." ++ String.ofList (ds.drop d.point.toNat)
  else "0." ++ zeros (-d.point).toNat ++ String.ofList ds

def scientific (d : Decimal) : String :=
  let e := d.point - 1
  let ds := (Nat.repr d.digits).toList
  let tail := if ds.length ≤ 1 then "" else "." ++ String.ofList (ds.drop 1)
  String.ofList (ds.take 1) ++ tail ++ (if 0 ≤ e then "e+" else "e-") ++ Nat.repr e.natAbs

end Decimal

namespace Binary64

def sign (x : Binary64) : String := if x.isNegative then "-" else ""

def plainText (x : Binary64) : String :=
  if x.isNaN then "NaN"
  else if !x.isFinite then x.sign ++ "inf"
  else if x.isZero then x.sign ++ "0"
  else x.sign ++ x.shortest.positional

/-- Positional text with at least one decimal place from a hundred thousandth up to 16 digits
before the point, and an exponent outside that range. -/
def pointedText (x : Binary64) : String :=
  if x.isZero then x.sign ++ "0.0"
  else
    let d := x.shortest
    if -5 < d.point ∧ d.point ≤ 16 then
      x.sign ++ d.positional ++ (if 0 ≤ d.exponent then ".0" else "")
    else x.sign ++ d.scientific

end Binary64
end TenantGate
