import TenantGate.Series.Protobuf
/-!
# Block compression

A compressed block is the length of its content and a list of elements.  An element is a literal,
which holds bytes, or a copy of bytes that stand further back.  Any such list is a compressed form;
the one that is written here holds literals alone.
-/

namespace TenantGate
namespace Snappy

/-- The longest content that can be compressed: with room for the elements it has to fit in 32
bits. -/
def maxLength : Nat := 0xffffffff

def roomFor (length : Nat) : Nat := 32 + length + length / 6

def literal (b : Bytes) : Bytes :=
  let n := b.length - 1
  if n < 60 then UInt8.ofNat (n * 4) :: b
  else if n < 256 then 0xf0 :: UInt8.ofNat n :: b
  else 0xf4 :: Bytes.ofLittleEndian 2 n ++ b

/-- Literals of full size and a rest; `fuel` bounds their number. -/
def literals : (fuel : Nat) → Bytes → Bytes
  | 0, _ => []
  | fuel + 1, b =>
    if b.isEmpty then [] else literal (b.take 65536) ++ literals fuel (b.drop 65536)

def encode? (b : Bytes) : Option Bytes :=
  if roomFor b.length ≤ maxLength then
    some (Protobuf.varint b.length ++ literals (b.length / 65536 + 1) b)
  else none

def readLength? : (bytes : Nat) → Bytes → Option (Nat × Bytes)
  | 0, _ => none
  | _, [] => none
  | n + 1, x :: s =>
    if x.toNat < 128 then some (x.toNat, s)
    else (readLength? n s).map fun p => (x.toNat - 128 + 128 * p.1, p.2)

/-- Repeats `count` bytes from `offset` bytes back; `out` is in reverse. -/
def copyBack? (offset : Nat) : (count : Nat) → (out : Bytes) → Option Bytes
  | 0, out => some out
  | n + 1, out =>
    if offset = 0 then none
    else match out[offset - 1]? with
      | some x => copyBack? offset n (x :: out)
      | none => none

def takeLiteral? (width : Nat) (s : Bytes) : Option (Bytes × Bytes) :=
  let n := Bytes.littleEndian (s.take width) + 1
  let rest := s.drop width
  if s.length < width ∨ rest.length < n then none else some (rest.take n, rest.drop n)

/-- All elements; each takes one byte at least, which bounds their number by `fuel`. -/
def elements? : (fuel : Nat) → (out : Bytes) → Bytes → Option Bytes
  | _, out, [] => some out.reverse
  | 0, _, _ => none
  | fuel + 1, out, tag :: s =>
    let n := tag.toNat / 4
    match tag.toNat % 4 with
    | 0 =>
      if n < 60 then
        if s.length < n + 1 then none
        else elements? fuel ((s.take (n + 1)).reverse ++ out) (s.drop (n + 1))
      else do
        let (b, s) ← takeLiteral? (n - 59) s
        elements? fuel (b.reverse ++ out) s
    | 1 =>
      match s with
      | x :: s => do
        elements? fuel (← copyBack? (n / 8 * 256 + x.toNat) (n % 8 + 4) out) s
      | [] => none
    | k =>
      let width := if k = 2 then 2 else 4
      if s.length < width then none
      else do
        elements? fuel (← copyBack? (Bytes.littleEndian (s.take width)) (n + 1) out)
          (s.drop width)

def decode? (b : Bytes) : Option Bytes := do
  let (length, s) ← readLength? 5 b
  let out ← elements? s.length [] s
  if out.length = length then some out else none

end Snappy
end TenantGate
