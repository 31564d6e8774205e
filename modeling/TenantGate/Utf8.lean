import TenantGate.Bytes
/-!
# Where UTF-8 is ill-formed

Bytes that are not UTF-8 are cut into characters and ill-formed pieces.  A piece is the longest
start of a character that is not completed, or else a single byte.
-/

namespace TenantGate
namespace Utf8

/-- What the first bytes are: a whole character, or an ill-formed piece, of a given length. -/
inductive Piece
  | char (length : Nat)
  | illFormed (length : Nat)
  deriving DecidableEq, Repr

def Piece.length : Piece → Nat
  | .char n => n
  | .illFormed n => n

def isTail (b : UInt8) : Bool := 0x80 ≤ b && b ≤ 0xbf

/-- Whether `b` may come after the first byte `a` of a character of three or four bytes. -/
def maySecond (a b : UInt8) : Bool :=
  if a = 0xe0 then 0xa0 ≤ b && b ≤ 0xbf
  else if a = 0xed then 0x80 ≤ b && b ≤ 0x9f
  else if a = 0xf0 then 0x90 ≤ b && b ≤ 0xbf
  else if a = 0xf4 then 0x80 ≤ b && b ≤ 0x8f
  else isTail b

def tails (total read : Nat) : Nat → Bytes → Piece
  | 0, _ => .char total
  | _ + 1, [] => .illFormed read
  | n + 1, b :: s => if isTail b then tails total (read + 1) n s else .illFormed read

def piece (a : UInt8) (s : Bytes) : Piece :=
  let long := fun (total : Nat) => match s with
    | [] => Piece.illFormed 1
    | b :: s => if maySecond a b then tails total 2 (total - 2) s else .illFormed 1
  if a < 0x80 then .char 1
  else if 0xc2 ≤ a ∧ a ≤ 0xdf then tails 2 1 1 s
  else if 0xe0 ≤ a ∧ a ≤ 0xef then long 3
  else if 0xf0 ≤ a ∧ a ≤ 0xf4 then long 4
  else .illFormed 1

/-- The pieces of `s`, each with whether it is a character; at least one byte is taken a step. -/
def pieces : Bytes → List (Bool × Bytes)
  | [] => []
  | a :: s =>
    match piece a s with
    | .char n => (true, a :: s.take (n - 1)) :: pieces (s.drop (n - 1))
    | .illFormed n => (false, a :: s.take (n - 1)) :: pieces (s.drop (n - 1))
termination_by s => s.length
decreasing_by all_goals (simp only [List.length_drop, List.length_cons]; omega)

/-- What is left after the longest start that is well-formed. -/
def dropWellFormed (s : Bytes) : Bytes :=
  s.drop (((pieces s).takeWhile (·.1)).foldl (fun n p => n + p.2.length) 0)

/-- The text with one replacement character for each ill-formed piece. -/
def decodeLossy (s : Bytes) : String :=
  String.join ((pieces s).map fun (ok, b) =>
    if ok then (Bytes.text? b).getD "\uFFFD" else "\uFFFD")

end Utf8
end TenantGate
