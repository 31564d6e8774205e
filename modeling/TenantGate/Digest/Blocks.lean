import TenantGate.Bytes
/-!
# Messages in blocks

A message is followed by a bit, by zeros and by its length in bits, so that it fills blocks of
sixteen words.
-/

namespace TenantGate
namespace Digest

def paddingZeros (length : Nat) : Nat := (119 - length % 64) % 64

def pad (message : Bytes) : Bytes :=
  message ++ 0x80 :: List.replicate (paddingZeros message.length) 0
    ++ Bytes.ofBigEndian 8 (message.length * 8)

def words : Bytes → List UInt32
  | a :: b :: c :: d :: s => UInt32.ofNat (Bytes.bigEndian [a, b, c, d]) :: words s
  | _ => []

/-- Cuts a list into pieces of sixteen; a rest that is too short is dropped. -/
def blocks (fuel : Nat) (ws : List UInt32) : List (List UInt32) :=
  match fuel with
  | 0 => []
  | fuel + 1 => if ws.length < 16 then [] else ws.take 16 :: blocks fuel (ws.drop 16)

def messageBlocks (message : Bytes) : List (List UInt32) :=
  let ws := words (pad message)
  blocks (ws.length / 16) ws

/-- Continues a schedule of words: each next word is a function of the last sixteen. -/
def extend (next : List UInt32 → UInt32) : (count : Nat) → (window : List UInt32) → List UInt32
  | 0, _ => []
  | n + 1, window =>
    let w := next window
    w :: extend next n (window.drop 1 ++ [w])

def rotateLeft (x : UInt32) (n : UInt32) : UInt32 := (x <<< n) ||| (x >>> (32 - n))

def rotateRight (x : UInt32) (n : UInt32) : UInt32 := (x >>> n) ||| (x <<< (32 - n))

def wordBytes (x : UInt32) : Bytes := Bytes.ofBigEndian 4 x.toNat

end Digest
end TenantGate
