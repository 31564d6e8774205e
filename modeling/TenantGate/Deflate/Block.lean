import TenantGate.Deflate.Code
/-!
# Blocks

A stream is a list of blocks, each of which adds to the output.  A block stores bytes as they are,
or it holds words for bytes and for repetitions of what was written before.
-/

namespace TenantGate
namespace Deflate

abbrev Output := Array UInt8

/-- Repeats bytes from a given distance back; what would lie before the start is zero. -/
def repeatBack (distance : Nat) : (count : Nat) → Output → Output
  | 0, out => out
  | n + 1, out =>
    let byte := if distance ≤ out.size then out.getD (out.size - distance) 0 else 0
    repeatBack distance n (out.push byte)

/-- The least length of each length symbol from 257 on, and how many bits are added to it. -/
def lengthBases : List (Nat × Nat) := [
  (3, 0), (4, 0), (5, 0), (6, 0), (7, 0), (8, 0), (9, 0), (10, 0), (11, 1), (13, 1), (15, 1),
  (17, 1), (19, 2), (23, 2), (27, 2), (31, 2), (35, 3), (43, 3), (51, 3), (59, 3), (67, 4),
  (83, 4), (99, 4), (115, 4), (131, 5), (163, 5), (195, 5), (227, 5), (258, 0)]

/-- The least distance of each distance symbol, and how many bits are added to it. -/
def distanceBases : List (Nat × Nat) := [
  (1, 0), (2, 0), (3, 0), (4, 0), (5, 1), (7, 1), (9, 2), (13, 2), (17, 3), (25, 3), (33, 4),
  (49, 4), (65, 5), (97, 5), (129, 6), (193, 6), (257, 7), (385, 7), (513, 8), (769, 8),
  (1025, 9), (1537, 9), (2049, 10), (3073, 10), (4097, 11), (6145, 11), (8193, 12), (12289, 12),
  (16385, 13), (24577, 13)]

def extended (bases : List (Nat × Nat)) (symbol : Nat) (s : Bits) : Except Fault (Nat × Bits) :=
  match bases[symbol]? with
  | none => .error .corrupt
  | some (base, bits) => (s.take bits).map fun p => (base + p.1, p.2)

def endOfBlock : Nat := 256

/-- The words of a block up to its end.  Each word takes a bit at least, which bounds their number
by `fuel`. -/
def words (literals distances : Code) : (fuel : Nat) → Output → Bits → Except Fault (Output × Bits)
  | 0, _, _ => .error .incomplete
  | fuel + 1, out, s => do
    let (symbol, s) ← literals.decode s
    if symbol < endOfBlock then words literals distances fuel (out.push (UInt8.ofNat symbol)) s
    else if symbol = endOfBlock then return (out, s)
    else
      let (length, s) ← extended lengthBases (symbol - endOfBlock - 1) s
      let (symbol, s) ← distances.decode s
      let (distance, s) ← extended distanceBases symbol s
      words literals distances fuel (repeatBack distance length out) s

/-- A block that stores bytes: their number, its complement, and the bytes. -/
def stored (out : Output) (s : Bits) : Except Fault (Output × Bits) :=
  match s.align with
  | a :: b :: c :: d :: rest =>
    let length := Bytes.littleEndian [a, b]
    if length + Bytes.littleEndian [c, d] ≠ 65535 then .error .corrupt
    else if rest.length < length then .error .incomplete
    else .ok (out ++ (rest.take length).toArray, ⟨[], rest.drop length⟩)
  | _ => .error .incomplete

def fixedLiterals : Code := .ofLengths
  (List.replicate 144 8 ++ List.replicate 112 9 ++ List.replicate 24 7 ++ List.replicate 8 8)

def fixedDistances : Code := .ofLengths (List.replicate 32 5)

/-- The order in which the lengths of the code for lengths are written. -/
def lengthOrder : List Nat := [16, 17, 18, 0, 8, 7, 9, 6, 10, 5, 11, 4, 12, 3, 13, 2, 14, 1, 15]

def threeBits : (count : Nat) → Bits → Except Fault (List Nat × Bits)
  | 0, s => .ok ([], s)
  | n + 1, s => do
    let (x, s) ← s.take 3
    let (xs, s) ← threeBits n s
    return (x :: xs, s)

/-- The lengths of both codes of a block; `read` holds those before, the last one first. -/
def codeLengths (code : Code) (total : Nat) :
    (fuel : Nat) → (read : List Nat) → Bits → Except Fault (List Nat × Bits)
  | 0, _, _ => .error .incomplete
  | fuel + 1, read, s => do
    if total < read.length then .error .corrupt
    else if read.length = total then return (read.reverse, s)
    else
      let (symbol, s) ← code.decode s
      if symbol < 16 then codeLengths code total fuel (symbol :: read) s
      else if symbol = 16 then
        match read with
        | [] => .error .corrupt
        | last :: _ =>
          let (n, s) ← s.take 2
          codeLengths code total fuel (List.replicate (n + 3) last ++ read) s
      else if symbol = 17 then
        let (n, s) ← s.take 3
        codeLengths code total fuel (List.replicate (n + 3) 0 ++ read) s
      else
        let (n, s) ← s.take 7
        codeLengths code total fuel (List.replicate (n + 11) 0 ++ read) s

def maxLiterals : Nat := 286

def maxDistances : Nat := 30

def readCodes (s : Bits) : Except Fault (Code × Code × Bits) := do
  let (n, s) ← s.take 5
  let (m, s) ← s.take 5
  let (k, s) ← s.take 4
  let literalCount := n + 257
  let distanceCount := m + 1
  if maxLiterals < literalCount ∨ maxDistances < distanceCount then throw .corrupt
  let (written, s) ← threeBits (k + 4) s
  let lengths := (List.range 19).map fun symbol =>
    ((lengthOrder.zip written).lookup symbol).getD 0
  let code := Code.ofLengths lengths
  if !code.isComplete then throw .corrupt
  let total := literalCount + distanceCount
  let (all, s) ← codeLengths code total (total + 1) [] s
  let literals := Code.ofLengths (all.take literalCount)
  let distances := Code.ofLengths (all.drop literalCount)
  if literals.isAllowed ∧ distances.isAllowed then return (literals, distances, s)
  else throw .corrupt

def block (fuel : Nat) (kind : Nat) (out : Output) (s : Bits) : Except Fault (Output × Bits) := do
  match kind with
  | 0 => stored out s
  | 1 => words fixedLiterals fixedDistances fuel out s
  | 2 =>
    let (literals, distances, s) ← readCodes s
    words literals distances fuel out s
  | _ => .error .corrupt

def blocks : (fuel : Nat) → Output → Bits → Except Fault (Output × Bytes)
  | 0, _, _ => .error .incomplete
  | fuel + 1, out, s => do
    let (last, s) ← s.next
    let (kind, s) ← s.take 2
    let (out, s) ← block (fuel + 1) kind out s
    if last then return (out, s.align) else blocks fuel out s

end Deflate
end TenantGate
