import TenantGate.Bytes
/-!
# Bits from bytes

The bits of a byte are taken from the lowest to the highest.
-/

namespace TenantGate
namespace Deflate

/-- A stream breaks off before its end, or it is not a stream at all. -/
inductive Fault
  | incomplete
  | corrupt
  deriving DecidableEq, Repr

def Fault.message : Fault → String
  | .incomplete => "incomplete deflate stream"
  | .corrupt => "corrupt deflate stream"

/-- What is left of a stream: bits of a byte that was begun, and bytes. -/
structure Bits where
  held : List Bool := []
  bytes : Bytes
  deriving DecidableEq, Repr

namespace Bits

def ofByte (x : UInt8) : List Bool := (List.range 8).map x.toNat.testBit

def next : Bits → Except Fault (Bool × Bits)
  | ⟨b :: held, bytes⟩ => .ok (b, ⟨held, bytes⟩)
  | ⟨[], []⟩ => .error .incomplete
  | ⟨[], x :: bytes⟩ => .ok (x.toNat.testBit 0, ⟨(ofByte x).drop 1, bytes⟩)

/-- The number of `n` bits, the lowest first. -/
def take : (n : Nat) → Bits → Except Fault (Nat × Bits)
  | 0, s => .ok (0, s)
  | n + 1, s => do
    let (b, s) ← s.next
    let (rest, s) ← take n s
    return (b.toNat + 2 * rest, s)

def align (s : Bits) : Bytes := s.bytes

end Bits
end Deflate
end TenantGate
