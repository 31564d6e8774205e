/-!
# Punycode

A label with characters beyond ASCII is written as its ASCII characters, a hyphen, and the places
and values of the others as a series of differences in base 36 with adaptive thresholds.
-/

namespace TenantGate
namespace Punycode

def digit (d : Nat) : Char := if d < 26 then Char.ofNat (97 + d) else Char.ofNat (22 + d)

def digitValue? (c : Char) : Option Nat :=
  let n := c.toNat
  if 97 ≤ n ∧ n ≤ 122 then some (n - 97)
  else if 65 ≤ n ∧ n ≤ 90 then some (n - 65)
  else if 48 ≤ n ∧ n ≤ 57 then some (n - 22)
  else none

def threshold (k bias : Nat) : Nat := max 1 (min 26 (k - bias))

def adaptLoop (delta k : Nat) : Nat :=
  if 455 < delta then adaptLoop (delta / 35) (k + 36) else k + 36 * delta / (delta + 38)
termination_by delta

/-- The bias after a difference, at the first one and later. -/
def adapt (delta count : Nat) (first : Bool) : Nat :=
  let d := if first then delta / 700 else delta / 2
  adaptLoop (d + d / count) 0

def encodeNumber (bias q k : Nat) : List Char :=
  let t := threshold k bias
  if q < t then [digit q]
  else digit (t + (q - t) % (36 - t)) :: encodeNumber bias ((q - t) / (36 - t)) (k + 36)
termination_by q
decreasing_by
  have : 1 ≤ threshold k bias := by unfold threshold; omega
  exact Nat.lt_of_le_of_lt (Nat.div_le_self _ _) (by omega)

structure EncodeState where
  written : List Char
  delta : Nat
  bias : Nat
  handled : Nat

/-- Passes over the label for all occurrences of the code point `m`. -/
def encodePass (basic m : Nat) (st : EncodeState) (c : Char) : EncodeState :=
  if c.toNat < m then { st with delta := st.delta + 1 }
  else if c.toNat = m then
    { written := st.written ++ encodeNumber st.bias st.delta 36
      delta := 0
      bias := adapt st.delta (st.handled + 1) (st.handled = basic)
      handled := st.handled + 1 }
  else st

/-- Writes the code points beyond ASCII, given in ascending order. -/
def encodeRest (label : List Char) (basic : Nat) : List Nat → (n : Nat) → EncodeState → List Char
  | [], _, st => st.written
  | m :: ms, n, st =>
    let st := { st with delta := st.delta + (m - n) * (st.handled + 1) }
    let st := label.foldl (encodePass basic m) st
    encodeRest label basic ms (m + 1) { st with delta := st.delta + 1 }

def encode (label : List Char) : List Char :=
  let basic := label.filter fun c => c.toNat < 128
  let others := ((label.map Char.toNat).filter (128 ≤ ·)).mergeSort.eraseDups
  let start := if basic.isEmpty then [] else basic ++ ['-']
  encodeRest label basic.length others 128 ⟨start, 0, 72, basic.length⟩

def decodeNumber (bias i weight k : Nat) : List Char → Option (Nat × List Char)
  | [] => none
  | c :: s => do
    let d ← digitValue? c
    let i := i + d * weight
    let t := threshold k bias
    if d < t then some (i, s) else decodeNumber bias i (weight * (36 - t)) (k + 36) s

/-- Inserts code points until the input, of which each step takes a character, is used up. -/
def decodeRest : (fuel : List Char) → (n i bias : Nat) → (out s : List Char) → Option (List Char)
  | _, _, _, _, out, [] => some out
  | [], _, _, _, _, _ :: _ => none
  | _ :: fuel, n, i, bias, out, c :: s => do
    let (j, s) ← decodeNumber bias i 1 36 (c :: s)
    let count := out.length + 1
    let n := n + j / count
    let place := j % count
    if n < 0xd800 ∨ (0xdfff < n ∧ n ≤ 0x10ffff) then
      decodeRest fuel n (place + 1) (adapt (j - i) count (i = 0))
        (out.take place ++ Char.ofNat n :: out.drop place) s
    else none

def decode? (s : List Char) : Option (List Char) :=
  let tail := (s.reverse.takeWhile (· != '-')).reverse
  let basic := (s.take (s.length - tail.length)).dropLast
  if tail.isEmpty ∨ basic.any (128 ≤ ·.toNat) then none
  else decodeRest tail 128 0 72 basic tail

end Punycode
end TenantGate
