import TenantGate.Text.Percent
import TenantGate.Url.Punycode
/-!
# Hosts of URLs

A host is an IPv6 address in brackets, an IPv4 address, or a domain name in lower-case ASCII.  A
name whose last label is a number has to be an IPv4 address, in any of the forms that such an
address was ever written in.
-/

namespace TenantGate

inductive UrlError
  | relativeWithoutBase
  | emptyHost
  | invalidDomain
  | invalidHostChar
  | invalidIpv4
  | invalidIpv6
  | invalidPortNumber
  deriving DecidableEq, Repr

def UrlError.message : UrlError → String
  | .relativeWithoutBase => "relative URL without a base"
  | .emptyHost => "empty host"
  | .invalidDomain => "invalid international domain name"
  | .invalidHostChar => "invalid domain character"
  | .invalidIpv4 => "invalid IPv4 address"
  | .invalidIpv6 => "invalid IPv6 address"
  | .invalidPortNumber => "invalid port number"

namespace Host

def digits? (base : Nat) (s : List Char) : Option Nat :=
  s.foldlM (fun n c => match Percent.digitValue? c with
    | some d => if d < base then some (n * base + d) else none
    | none => none) 0

/-- A part of an address: hexadecimal after `0x`, octal after another zero, else decimal. -/
def ipv4Part? (s : List Char) : Option Nat :=
  match s with
  | [] => none
  | '0' :: 'x' :: r => digits? 16 r
  | '0' :: 'X' :: r => digits? 16 r
  | '0' :: c :: r => digits? 8 (c :: r)
  | s => digits? 10 s

/-- The labels of a name, without an empty one at the end. -/
def labels (s : List Char) : List (List Char) :=
  let parts := s.splitOn '.'
  if parts.getLast? = some [] ∧ 1 < parts.length then parts.dropLast else parts

def endsInNumber (s : List Char) : Bool :=
  match (labels s).getLast? with
  | some last => (!last.isEmpty && last.all Char.isDigit) || (ipv4Part? last).isSome
  | none => false

/-- The last part fills all the bytes that the parts before it leave. -/
def ipv4? (s : List Char) : Option Nat := do
  let parts ← (labels s).mapM ipv4Part?
  let last ← parts.getLast?
  let front := parts.dropLast
  if 4 < parts.length ∨ front.any (255 < ·) ∨ Nat.pow 256 (4 - front.length) ≤ last then none
  else some (front.foldl (fun n x => n * 256 + x) 0 * Nat.pow 256 (4 - front.length) + last)

def ipv4Text (n : Nat) : String :=
  ".".intercalate ([n / 0x1000000, n / 0x10000 % 256, n / 0x100 % 256, n % 256].map Nat.repr)

/-- One number of a dotted address at the end of an IPv6 address, without leading zeros. -/
def dottedByte? (s : List Char) : Option Nat := do
  let n ← if s.all Char.isDigit ∧ !s.isEmpty then digits? 10 s else none
  if 255 < n ∨ (s.head? = some '0' ∧ 1 < s.length) then none else some n

def ipv6Piece? (s : List Char) : Option Nat :=
  if s.isEmpty ∨ 4 < s.length then none else digits? 16 s

/-- Pieces between colons; the last one may be a dotted address, which is worth two. -/
def ipv6Pieces? (dotted : Bool) : List (List Char) → Option (List Nat)
  | [] => some []
  | [s] =>
    if dotted ∧ s.contains '.' then
      match (s.splitOn '.').mapM dottedByte? with
      | some [a, b, c, d] => some [a * 256 + b, c * 256 + d]
      | _ => none
    else (ipv6Piece? s).map fun n => [n]
  | s :: r => do
    let n ← ipv6Piece? s
    let ns ← ipv6Pieces? dotted r
    some (n :: ns)

def splitDoubleColon? : List Char → Option (List Char × List Char)
  | [] => none
  | ':' :: ':' :: r => some ([], r)
  | c :: r => (splitDoubleColon? r).map fun (a, b) => (c :: a, b)

def colonParts (s : List Char) : List (List Char) := if s.isEmpty then [] else s.splitOn ':'

/-- Eight pieces, of which a double colon stands for one or more zeros. -/
def ipv6? (s : List Char) : Option (List Nat) :=
  match splitDoubleColon? s with
  | none => do
    let pieces ← ipv6Pieces? true (colonParts s)
    if pieces.length = 8 then some pieces else none
  | some (a, b) => do
    let front ← ipv6Pieces? false (colonParts a)
    let back ← ipv6Pieces? true (colonParts b)
    let missing := 8 - (front.length + back.length)
    if missing = 0 then none else some (front ++ List.replicate missing 0 ++ back)

/-- The start and the length of the longest run of zeros; the first of several. -/
def longestZeros : (index : Nat) → List Nat → Nat × Nat
  | _, [] => (0, 0)
  | i, n :: r =>
    let here := ((n :: r).takeWhile (· = 0)).length
    let later := longestZeros (i + 1) r
    if later.2 ≤ here then (i, here) else later

def ipv6Text (pieces : List Nat) : String :=
  let hex := fun (l : List Nat) => ":".intercalate (l.map fun n => String.ofList (Nat.toDigits 16 n))
  let (start, count) := longestZeros 0 pieces
  if count < 2 then "[" ++ hex pieces ++ "]"
  else "[" ++ hex (pieces.take start) ++ "::" ++ hex (pieces.drop (start + count)) ++ "]"

def isForbidden (c : Char) : Bool :=
  c.toNat ≤ 0x20 || (0x7f ≤ c.toNat && c.toNat ≤ 0x9f) || "%#/:<>?@[\\]^|".toList.contains c

/-- Lower case for the Latin, Greek and Cyrillic letters, and ASCII for its full-width forms. -/
def fold (c : Char) : List Char :=
  let n := c.toNat
  if n < 0x80 then [c.toLower]
  else if n = 0xad then []
  else if (0xc0 ≤ n ∧ n ≤ 0xde ∧ n ≠ 0xd7) ∨ (0x391 ≤ n ∧ n ≤ 0x3a9) ∨ (0x410 ≤ n ∧ n ≤ 0x42f) then
    [Char.ofNat (n + 0x20)]
  else if 0x400 ≤ n ∧ n ≤ 0x40f then [Char.ofNat (n + 0x50)]
  else if 0x100 ≤ n ∧ n ≤ 0x137 ∧ n ≠ 0x130 then [Char.ofNat (n / 2 * 2 + 1)]
  else if n = 0x3002 ∨ n = 0xff0e ∨ n = 0xff61 then ['.']
  else if 0xff01 ≤ n ∧ n ≤ 0xff5e then [(Char.ofNat (n - 0xfee0)).toLower]
  else [c]

/-- Whether a label needs an encoding and is in lower case and without forbidden characters. -/
def needsEncoding (s : List Char) : Bool :=
  s.any (128 ≤ ·.toNat) && !s.any isForbidden && s.flatMap fold == s

/-- The ASCII form of a label: one that is marked as encoded has to decode to a label that needs
the encoding. -/
def label? (s : List Char) : Option (List Char) :=
  if s.any isForbidden then none
  else if s.any (128 ≤ ·.toNat) then some ("xn--".toList ++ Punycode.encode s)
  else match "xn--".toList.isPrefixOf? s with
    | none => some s
    | some encoded =>
      match Punycode.decode? encoded with
      | some plain => if needsEncoding plain then some s else none
      | none => none

def domain? (name : Bytes) : Option (List Char) := do
  let text ← Bytes.text? name
  let labels ← ((text.toList.flatMap fold).splitOn '.').mapM label?
  some (['.'].intercalate labels)

def parse (s : List Char) : Except UrlError String :=
  match s with
  | '[' :: r =>
    if r.getLast? = some ']' then
      match ipv6? r.dropLast with
      | some pieces => .ok (ipv6Text pieces)
      | none => .error .invalidIpv6
    else .error .invalidIpv6
  | s =>
    match domain? (Percent.decode s) with
    | none => .error .invalidDomain
    | some [] => .error .emptyHost
    | some name =>
      if endsInNumber name then
        match ipv4? name with
        | some n => .ok (ipv4Text n)
        | none => .error .invalidIpv4
      else .ok (String.ofList name)

/-- The host of a URL with any other scheme, which is not looked into. -/
def parseOpaque (s : List Char) : Except UrlError String :=
  match s with
  | '[' :: r =>
    if r.getLast? = some ']' then
      match ipv6? r.dropLast with
      | some pieces => .ok (ipv6Text pieces)
      | none => .error .invalidIpv6
    else .error .invalidIpv6
  | s =>
    if s.any ("\x00\t\n\r #/:<>?@[\\]^|".toList.contains ·) then .error .invalidHostChar
    else .ok (String.ofList (Percent.encode (fun c => 0x20 ≤ c.toNat && c.toNat < 0x7f) s))

end Host
end TenantGate
