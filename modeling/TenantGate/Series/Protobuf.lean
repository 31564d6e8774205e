import TenantGate.Bytes
import TenantGate.Series.Basic
/-!
# Write requests on the wire

The protobuf form of a list of series.  A field is written as its key and its value; a text, a
number or a time that is empty or zero is left out, and a repeated field is written once for each
of its elements.
-/

namespace TenantGate
namespace Protobuf

/-- Seven bits a byte, the lowest first; every byte but the last has its high bit set. -/
def varint (n : Nat) : Bytes :=
  if n < 128 then [UInt8.ofNat n] else UInt8.ofNat (n % 128 + 128) :: varint (n / 128)
termination_by n

inductive WireType
  | varint
  | fixed64
  | delimited
  deriving DecidableEq, Repr

def WireType.code : WireType → Nat
  | .varint => 0
  | .fixed64 => 1
  | .delimited => 2

def key (field : Nat) (type : WireType) : Bytes := varint (field * 8 + type.code)

def delimited (field : Nat) (body : Bytes) : Bytes :=
  key field .delimited ++ varint body.length ++ body

def text (field : Nat) (s : String) : Bytes :=
  if s.isEmpty then [] else delimited field (.ofText s)

/-- A number is left out if it is a zero of either sign. -/
def double (field : Nat) (x : Binary64) : Bytes :=
  if x.isZero then [] else key field .fixed64 ++ .ofLittleEndian 8 x.bits.toNat

/-- A negative integer is written as its residue modulo two to the power of 64. -/
def int64 (field : Nat) (n : Int) : Bytes :=
  if n = 0 then [] else key field .varint ++ varint (n % 0x10000000000000000).toNat

def label (l : Label) : Bytes := text 1 l.name ++ text 2 l.value

def sample (s : Sample) : Bytes := double 1 s.value ++ int64 2 s.timestamp

def timeSeries (s : TimeSeries) : Bytes :=
  (s.labels.flatMap fun l => delimited 1 (label l))
    ++ s.samples.flatMap fun x => delimited 2 (sample x)

def writeRequest (series : List TimeSeries) : Bytes :=
  series.flatMap fun s => delimited 1 (timeSeries s)

end Protobuf
end TenantGate
