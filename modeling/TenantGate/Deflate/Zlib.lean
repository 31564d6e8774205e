import TenantGate.Deflate.Block
/-!
# Streams with a head and a checksum

Two bytes before the blocks tell what kind of stream it is, and a checksum of the output follows
them.  What comes after the checksum does not matter.
-/

namespace TenantGate
namespace Zlib

open Deflate

/-- A remainder by this follows each addition of the checksum. -/
def checksumBase : Nat := 65521

/-- The sum of the bytes plus one, and the sum of all sums so far. -/
def checksumStep (sums : Nat × Nat) (b : UInt8) : Nat × Nat :=
  let low := (sums.1 + b.toNat) % checksumBase
  (low, (sums.2 + low) % checksumBase)

def checksum (data : Bytes) : Nat :=
  let (low, high) := data.foldl checksumStep (1, 0)
  high * 65536 + low

/-- The head of a deflated stream with a window of at most 32768 bytes and without a dictionary. -/
def isHead (a b : UInt8) : Bool :=
  (a.toNat * 256 + b.toNat) % 31 == 0 && a.toNat % 16 == 8 && a.toNat / 16 ≤ 7
    && !b.toNat.testBit 5

def decode : Bytes → Except Fault Bytes
  | a :: b :: s => do
    if !isHead a b then throw .corrupt
    let (out, rest) ← blocks (8 * s.length + 1) #[] ⟨[], s⟩
    if rest.length < 4 then throw .incomplete
    else if Bytes.bigEndian (rest.take 4) = checksum out.toList then return out.toList
    else throw .corrupt
  | _ => .error .incomplete

def storedBlock (last : Bool) (data : Bytes) : Bytes :=
  (if last then 1 else 0) :: Bytes.ofLittleEndian 2 data.length
    ++ Bytes.ofLittleEndian 2 (65535 - data.length) ++ data

def storedBlocks : List Bytes → Bytes
  | [] => storedBlock true []
  | [data] => storedBlock true data
  | data :: rest => storedBlock false data ++ storedBlocks rest

end Zlib
end TenantGate
