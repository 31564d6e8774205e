import TenantGate.Digest.Sha256
import TenantGate.Key.Der
import TenantGate.Key.Pem
/-!
# RSA public keys

A key is a modulus and an exponent.  It signs a message if the signature, raised to the exponent,
is the digest of the message in its padded form.
-/

namespace TenantGate

structure RsaKey where
  modulus : Nat
  exponent : Nat
  deriving DecidableEq, Repr

namespace RsaKey

def bits (n : Nat) : Nat := if n = 0 then 0 else n.log2 + 1

def maxModulusBits : Nat := 4096

def maxExponent : Nat := 0x1ffffffff

/-- Both numbers are odd, and the exponent is above two and below the modulus. -/
def isAcceptable (k : RsaKey) : Bool :=
  bits k.modulus ≤ maxModulusBits && k.exponent < k.modulus && k.modulus % 2 == 1
    && k.exponent % 2 == 1 && 2 ≤ k.exponent && k.exponent ≤ maxExponent

def ofDer? (der : Bytes) : Option RsaKey := do
  let content ← Der.only? Der.sequenceTag der
  let (modulus, rest) ← Der.natural? content
  let (exponent, rest) ← Der.natural? rest
  if rest = [] then some ⟨modulus, exponent⟩ else none

def algorithm : Bytes :=
  [0x06, 0x09, 0x2a, 0x86, 0x48, 0x86, 0xf7, 0x0d, 0x01, 0x01, 0x01, 0x05, 0x00]

def ofPublicKeyInfo? (der : Bytes) : Option RsaKey := do
  let content ← Der.only? Der.sequenceTag der
  let (identifier, rest) ← Der.element? Der.sequenceTag content
  if identifier ≠ algorithm then none
  let key ← Der.wholeBytes? rest >>= ofDer?
  if key.isAcceptable then some key else none

def ofPem? (pem : String) : Option RsaKey :=
  Pem.decode? "PUBLIC KEY" (Bytes.ofText pem) >>= ofPublicKeyInfo?

/-- The square and multiply method. -/
def powMod (base exponent modulus : Nat) : Nat :=
  if h : exponent = 0 then 1 % modulus
  else
    let half := powMod (base * base % modulus) (exponent / 2) modulus
    if exponent % 2 = 1 then base * half % modulus else half
termination_by exponent
decreasing_by omega

theorem powMod_eq (base exponent modulus : Nat) :
    powMod base exponent modulus = Nat.pow base exponent % modulus := by
  change _ = base ^ exponent % modulus
  induction exponent using Nat.strongRecOn generalizing base with
  | ind e ih =>
    rw [powMod]
    split
    · next h => simp [h]
    · next h =>
      have half : powMod (base * base % modulus) (e / 2) modulus
          = (base * base) ^ (e / 2) % modulus := by
        rw [ih (e / 2) (by omega), ← Nat.pow_mod]
      have square : (base * base) ^ (e / 2) = base ^ (2 * (e / 2)) := by
        rw [← Nat.pow_two, ← Nat.pow_mul]
      simp only [half, square]
      split
      · next odd =>
        rw [Nat.mul_mod, Nat.mod_mod, ← Nat.mul_mod, ← Nat.pow_succ']
        congr 2
        omega
      · next even =>
        congr 2
        omega

def digestPrefix : Bytes :=
  [0x30, 0x31, 0x30, 0x0d, 0x06, 0x09, 0x60, 0x86, 0x48, 0x01, 0x65, 0x03, 0x04, 0x02, 0x01, 0x05,
    0x00, 0x04, 0x20]

def paddedDigest (size : Nat) (message : Bytes) : Bytes :=
  let digest := digestPrefix ++ Sha256.hash message
  [0x00, 0x01] ++ List.replicate (size - digest.length - 3) 0xff ++ 0x00 :: digest

def size (k : RsaKey) : Nat := (bits k.modulus + 7) / 8

def minModulusBytes : Nat := 256

/-- Whether a signature is one of a message; short moduli sign nothing. -/
def verifies (k : RsaKey) (message signature : Bytes) : Bool :=
  let s := Bytes.bigEndian signature
  minModulusBytes ≤ k.size && signature.length == k.size && s < k.modulus && s != 0
    && powMod s k.exponent k.modulus == Bytes.bigEndian (paddedDigest k.size message)

end RsaKey
end TenantGate
