import TenantGate.Json.Read
/-!
# Values of any kind

A value that has to be looked at more than once is kept whole.
-/

namespace TenantGate
namespace Json

inductive Value
  | null
  | boolean (b : Bool)
  | number (n : Number)
  | text (s : String)
  | list (elements : List Value)
  | object (members : List (String × Value))
  deriving Repr

namespace Value

def found : Value → Found
  | .null => .null
  | .boolean b => .boolean b
  | .number n => .number n
  | .text s => .text s
  | .list _ => .list
  | .object _ => .object

def refused (wanted : String) (v : Value) : Cause := .wrongKind v.found wanted

def readScalar : Reader Value
  | [] => faultAt .endInValue []
  | b :: r =>
    if b = 0x6e then (word [0x75, 0x6c, 0x6c] r).map fun r => (.null, r)
    else if b = 0x74 then (word [0x72, 0x75, 0x65] r).map fun r => (.boolean true, r)
    else if b = 0x66 then (word [0x61, 0x6c, 0x73, 0x65] r).map fun r => (.boolean false, r)
    else if b = 0x2d then (readNumber false r).map fun p => (.number p.1, p.2)
    else if isDigit b then (readNumber true (b :: r)).map fun p => (.number p.1, p.2)
    else if b = 0x22 then (readText r).map fun p => (.text p.1, p.2)
    else faultOn .expectedValue (b :: r)

/-- Closes a bracket.  It is also closed, as far as that goes, if there was a fault inside. -/
def closing (close : Bytes → Except Fault Bytes) :
    Except Fault (Value × Bytes) → Except Fault (Value × Bytes)
  | .ok (x, r) => (close r).map (x, ·)
  | .error f => .error { f with unread := match close f.unread with
      | .ok r => r
      | .error g => g.unread }

theorem closing_ok {close : Bytes → Except Fault Bytes} {r r' : Bytes} (h : close r = .ok r')
    (x : Value) : closing close (.ok (x, r)) = .ok (x, r') := by
  rw [closing, h]
  rfl

/-- Reading stops after the bracket, whether or not there was a fault inside. -/
theorem stop_closing {close : Bytes → Except Fault Bytes} {x : Except Fault (Value × Bytes)}
    {r : Bytes} (h : close (stop x) = .ok r) : stop (closing close x) = r := by
  rcases x with f | ⟨x, r'⟩ <;> rw [stop] at h
  · rw [closing, stop, h]
  · rw [closing_ok h, stop]

def readLayer (inner : Reader Value) : Reader Value := fun s =>
  match skipSpace s with
  | 0x5b :: r =>
    closing closeList ((elements inner (0x5b :: r) true r).map fun p => (.list p.1, p.2))
  | 0x7b :: r =>
    closing closeObject ((entries inner (0x7b :: r) true r).map fun p => (.object p.1, p.2))
  | s => readScalar s

/-- A value in which at most `depth` brackets are open at a time. -/
def read : (depth : Nat) → Reader Value
  | 0 => fun s =>
    match skipSpace s with
    | 0x5b :: r => faultOn .nestingTooDeep (0x5b :: r)
    | 0x7b :: r => faultOn .nestingTooDeep (0x7b :: r)
    | s => readScalar s
  | depth + 1 => readLayer (read depth)

end Value
end Json
end TenantGate
