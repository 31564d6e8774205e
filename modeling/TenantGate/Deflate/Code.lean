import TenantGate.Deflate.Bits
/-!
# Prefix codes

A code is given by the lengths of its words alone: words are numbered in the order of their lengths
and, for one length, in the order of their symbols.
-/

namespace TenantGate
namespace Deflate

structure Code where
  /-- How many words there are of each length from one bit on. -/
  counts : List Nat
  /-- The symbols in the order of their words. -/
  symbols : Array Nat
  deriving DecidableEq, Repr

namespace Code

def maxLength : Nat := 15

/-- The code in which a symbol has the length at its place; zero means that it has no word. -/
def ofLengths (lengths : List Nat) : Code where
  counts := (List.range maxLength).map fun i => lengths.count (i + 1)
  symbols := ((List.range maxLength).flatMap fun i =>
    lengths.zipIdx.filterMap fun (n, symbol) => if n = i + 1 then some symbol else none).toArray

/-- How much of all texts of full length start with a word, where `room` is the share of the next
length. -/
def covered (room : Nat) : List Nat → Nat
  | [] => 0
  | n :: counts => n * room + covered (room / 2) counts

/-- Every text of bits starts with exactly one word. -/
def isComplete (c : Code) : Bool := covered (Nat.pow 2 (maxLength - 1)) c.counts == Nat.pow 2 maxLength

/-- A code with one word at most may leave texts without a word. -/
def isAllowed (c : Code) : Bool := c.isComplete || c.symbols.size ≤ 1

/-- The symbol of the word that stands first.  Among words of one length, `first` is the number of
the first one and `index` its place; `word` is the number of the bits that were read. -/
def decodeFrom (c : Code) :
    List Nat → (word first index : Nat) → Bits → Except Fault (Nat × Bits)
  | [], _, _, _, _ => .error .corrupt
  | n :: counts, word, first, index, s => do
    let (b, s) ← s.next
    let word := word + b.toNat
    if word < first + n then return (c.symbols.getD (index + (word - first)) 0, s)
    else if counts.all (· == 0) then .error .corrupt
    else decodeFrom c counts (2 * word) (2 * (first + n)) (index + n) s

def decode (c : Code) (s : Bits) : Except Fault (Nat × Bits) := decodeFrom c c.counts 0 0 0 s

end Code
end Deflate
end TenantGate
