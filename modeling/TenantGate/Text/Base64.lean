import TenantGate.Bytes
/-!
# Base64

Three bytes are written as four symbols of six bits each.  A last group of one or two bytes is
written as two or three symbols, and the bits that it leaves over are zero.  There are two
alphabets, which differ in two symbols; with padding the last group is filled up with equals signs.
-/

namespace TenantGate
namespace Base64

inductive Alphabet
  | standard
  | url
  deriving DecidableEq, Repr

def Alphabet.last : Alphabet → UInt8 × UInt8
  | .standard => (0x2b, 0x2f)
  | .url => (0x2d, 0x5f)

def symbol (a : Alphabet) (n : Nat) : UInt8 :=
  if n < 26 then UInt8.ofNat (n + 65)
  else if n < 52 then UInt8.ofNat (n + 71)
  else if n < 62 then UInt8.ofNat (n - 4)
  else if n = 62 then a.last.1
  else a.last.2

def value? (a : Alphabet) (b : UInt8) : Option Nat :=
  if 65 ≤ b ∧ b ≤ 90 then some (b.toNat - 65)
  else if 97 ≤ b ∧ b ≤ 122 then some (b.toNat - 71)
  else if 48 ≤ b ∧ b ≤ 57 then some (b.toNat + 4)
  else if b = a.last.1 then some 62
  else if b = a.last.2 then some 63
  else none

def pad : UInt8 := 0x3d

inductive Fault
  | symbol (byte : UInt8) (offset : Nat)
  | length (length : Nat)
  | lastSymbol (byte : UInt8) (offset : Nat)
  | padding
  deriving DecidableEq, Repr

def Fault.message : Fault → String
  | .symbol b i => "Invalid symbol " ++ Nat.repr b.toNat ++ ", offset " ++ Nat.repr i ++ "."
  | .length n => "Invalid input length: " ++ Nat.repr n
  | .lastSymbol b i => "Invalid last symbol " ++ Nat.repr b.toNat ++ ", offset " ++ Nat.repr i ++ "."
  | .padding => "Invalid padding"

def threeBytes (a b c d : Nat) : Bytes :=
  [UInt8.ofNat (a * 4 + b / 16), UInt8.ofNat (b * 16 + c / 4), UInt8.ofNat (c * 64 + d)]

def values (a : Alphabet) (offset : Nat) : Bytes → Except Fault (List Nat)
  | [] => .ok []
  | b :: s =>
    match value? a b with
    | none => .error (.symbol b offset)
    | some n => (values a (offset + 1) s).map (n :: ·)

def lastBytes (offset : Nat) (symbols : Bytes) : List Nat → Except Fault Bytes
  | [] => .ok []
  | [_] => .error (.length (offset + 1))
  | [a, b] =>
    if b % 16 = 0 then .ok [UInt8.ofNat (a * 4 + b / 16)]
    else .error (.lastSymbol (symbols.getD 1 0) (offset + 1))
  | [a, b, c] =>
    if c % 4 = 0 then .ok [UInt8.ofNat (a * 4 + b / 16), UInt8.ofNat (b * 16 + c / 4)]
    else .error (.lastSymbol (symbols.getD 2 0) (offset + 2))
  | a :: b :: c :: d :: _ => .ok (threeBytes a b c d)

/-- The last group, of at most four symbols.  Padding is told apart from symbols that are not
allowed: it may follow two symbols or more, but nothing may follow it, and then it is refused. -/
def decodeLast (a : Alphabet) (offset : Nat) (s : Bytes) : Except Fault Bytes := do
  let symbols := s.takeWhile (· != pad)
  let rest := s.dropWhile (· != pad)
  let read ← values a offset symbols
  if rest.isEmpty then lastBytes offset symbols read
  else if symbols.length < 2 || rest.any (· != pad) then
    .error (.symbol pad (offset + symbols.length))
  else .error .padding

/-- The bytes of four symbols, and of all groups before the last one. -/
def decodeGroups (a : Alphabet) (offset : Nat) : Bytes → Except Fault Bytes
  | p :: q :: r :: s :: t :: rest => do
    match ← values a offset [p, q, r, s] with
    | [p, q, r, s] => return threeBytes p q r s ++ (← decodeGroups a (offset + 4) (t :: rest))
    | _ => .error .padding
  | s => decodeLast a offset s

/-- The bytes of a text without padding.  A text with one symbol too many whose last symbol is not
allowed is refused for that symbol first. -/
def decodeUnpadded (a : Alphabet) (s : Bytes) : Except Fault Bytes :=
  match s.length % 4 == 1, s.getLast? with
  | true, some b =>
    if b != pad && (value? a b).isNone then .error (.symbol b (s.length - 1))
    else decodeGroups a 0 s
  | _, _ => decodeGroups a 0 s

def decodePadded? (a : Alphabet) (s : Bytes) : Option Bytes :=
  let symbols := s.takeWhile (· != pad)
  let rest := s.dropWhile (· != pad)
  if s.length % 4 = 0 ∧ rest.length ≤ 2 ∧ rest.all (· == pad) then
    (decodeUnpadded a symbols).toOption
  else none

def encodeUnpadded (a : Alphabet) : Bytes → Bytes
  | x :: y :: z :: s =>
    [symbol a (x.toNat / 4), symbol a (x.toNat % 4 * 16 + y.toNat / 16),
      symbol a (y.toNat % 16 * 4 + z.toNat / 64), symbol a (z.toNat % 64)] ++ encodeUnpadded a s
  | [x, y] =>
    [symbol a (x.toNat / 4), symbol a (x.toNat % 4 * 16 + y.toNat / 16),
      symbol a (y.toNat % 16 * 4)]
  | [x] => [symbol a (x.toNat / 4), symbol a (x.toNat % 4 * 16)]
  | [] => []

def encodePadded (a : Alphabet) (s : Bytes) : Bytes :=
  let text := encodeUnpadded a s
  text ++ List.replicate ((4 - text.length % 4) % 4) pad

end Base64
end TenantGate
