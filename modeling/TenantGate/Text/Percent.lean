import TenantGate.Bytes
/-!
# Percent-encoding

A character outside a given set is written as the bytes of its UTF-8 form, each as a percent sign
and two upper-case hexadecimal digits.  Reading takes any percent sign that two hexadecimal digits
follow as a byte, and leaves everything else as it stands.
-/

namespace TenantGate
namespace Percent

def upperDigit (n : Nat) : Char :=
  if n < 10 then Char.ofNat (48 + n) else Char.ofNat (55 + n)

def encodeByte (b : UInt8) : List Char :=
  ['%', upperDigit (b.toNat / 16), upperDigit (b.toNat % 16)]

def encodeChar (keep : Char → Bool) (c : Char) : List Char :=
  if keep c then [c] else (String.utf8EncodeChar c).flatMap encodeByte

def encode (keep : Char → Bool) (s : List Char) : List Char := s.flatMap (encodeChar keep)

theorem encode_append (keep : Char → Bool) (s t : List Char) :
    encode keep (s ++ t) = encode keep s ++ encode keep t := List.flatMap_append

def digitValue? (c : Char) : Option Nat :=
  if c.toNat < 128 then Bytes.hexValue? (Bytes.ofChar c) else none

def decode : List Char → Bytes
  | [] => []
  | '%' :: a :: b :: s =>
    match digitValue? a, digitValue? b with
    | some x, some y => UInt8.ofNat (x * 16 + y) :: decode s
    | _, _ => 0x25 :: decode (a :: b :: s)
  | c :: s => String.utf8EncodeChar c ++ decode s

end Percent
end TenantGate
