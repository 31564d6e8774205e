import TenantGate.Bytes
/-!
# Elements of DER

An element is a tag, a length and as many bytes of content.  Every value has one form only: a length
takes the fewest bytes that hold it, and so does an integer.
-/

namespace TenantGate
namespace Der

/-- The length that follows a tag.  From 128 on, the first byte says how many bytes hold it. -/
def length? : Bytes → Option (Nat × Bytes)
  | [] => none
  | b :: s =>
    let n := b.toNat
    if n < 0x80 then some (n, s)
    else
      let width := n - 0x80
      let value := Bytes.bigEndian (s.take width)
      let least := if width = 1 then 0x80 else Nat.pow 256 (width - 1)
      if 1 ≤ width ∧ width ≤ 4 ∧ width ≤ s.length ∧ least ≤ value ∧ value < 0x10000000 then
        some (value, s.drop width)
      else none

def element? (tag : UInt8) : Bytes → Option (Bytes × Bytes)
  | [] => none
  | b :: s => do
    let (n, rest) ← length? s
    if b = tag ∧ n ≤ rest.length then some (rest.take n, rest.drop n) else none

def only? (tag : UInt8) (s : Bytes) : Option Bytes :=
  match element? tag s with
  | some (content, []) => some content
  | _ => none

def sequenceTag : UInt8 := 0x30

def natural? (s : Bytes) : Option (Nat × Bytes) :=
  match element? 0x02 s with
  | some (b :: content, rest) =>
    if 0x80 ≤ b ∨ (b = 0 ∧ content.head?.any (· < 0x80)) then none
    else some (Bytes.bigEndian (b :: content), rest)
  | _ => none

def wholeBytes? (s : Bytes) : Option Bytes :=
  match only? 0x03 s with
  | some (0 :: content) => some content
  | _ => none

end Der
end TenantGate
