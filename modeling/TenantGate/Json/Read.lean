import TenantGate.Json.Skip
/-!
# Reading values of a wanted type

A reader takes one value of its type off the front of what is left of a document.  Where another
kind of value stands, that value is read far enough to name it in the fault.  Records are read
from objects, members in any order and unknown ones passed over, and also from lists of their
members in order.
-/

namespace TenantGate
namespace Json

abbrev Reader (α : Type) := Bytes → Except Fault (α × Bytes)

variable {α σ : Type}

/-- Names the value that stands first, which is not what was wanted. -/
def refuse (wanted : String) (s : Bytes) : Except Fault α := do
  match s with
  | [] => faultAt .endInValue []
  | b :: r =>
    if b = 0x6e then
      let r ← word [0x75, 0x6c, 0x6c] r
      faultAt (.wrongKind .null wanted) r
    else if b = 0x74 then
      let r ← word [0x72, 0x75, 0x65] r
      faultAt (.wrongKind (.boolean true) wanted) r
    else if b = 0x66 then
      let r ← word [0x61, 0x6c, 0x73, 0x65] r
      faultAt (.wrongKind (.boolean false) wanted) r
    else if b = 0x2d then
      let (n, r) ← readNumber false r
      faultAt (.wrongKind (.number n) wanted) r
    else if isDigit b then
      let (n, r) ← readNumber true (b :: r)
      faultAt (.wrongKind (.number n) wanted) r
    else if b = 0x22 then
      let (t, r) ← readText r
      faultAt (.wrongKind (.text t) wanted) r
    else if b = 0x5b then faultAt (.wrongKind .list wanted) (b :: r)
    else if b = 0x7b then faultAt (.wrongKind .object wanted) (b :: r)
    else faultOn .expectedValue (b :: r)

def text : Reader String := fun s =>
  match skipSpace s with
  | 0x22 :: r => readText r
  | s => refuse "a string" s

/-- A number with what is wanted of it: the check sees the number and gives its value or the cause
of a fault, which stands after the number. -/
def number (wanted : String) (check : Number → Except Cause α) : Reader α := fun s => do
  let take := fun (p : Number × Bytes) => match check p.1 with
    | .ok x => Except.ok (x, p.2)
    | .error cause => faultAt cause p.2
  match skipSpace s with
  | 0x2d :: r => take (← readNumber false r)
  | b :: r => if isDigit b then take (← readNumber true (b :: r)) else refuse wanted (b :: r)
  | [] => faultAt .endInValue []

def int64 : Reader Int := number "i64" fun n =>
  match n with
  | .unsigned k => if k < 0x8000000000000000 then .ok k else .error (.wrongValue (.number n) "i64")
  | .negative k => .ok (-k)
  | .double _ => .error (.wrongKind (.number n) "i64")

def Number.value : Number → Binary64
  | .unsigned k => .ofInt k
  | .negative k => .ofInt (-k)
  | .double x => x

def double : Reader Binary64 := number "f64" fun n => .ok n.value

def optional (item : Reader α) : Reader (Option α) := fun s =>
  match skipSpace s with
  | 0x6e :: r => (word [0x75, 0x6c, 0x6c] r).map fun r => (none, r)
  | s => (item s).map fun p => (some p.1, p.2)

def ignored : Reader Unit := fun s => (skipValue s).map fun r => ((), r)

/-- Where reading stopped: after the value, or at the fault. -/
def stop : Except Fault (α × Bytes) → Bytes
  | .ok p => p.2
  | .error f => f.unread

/-- A value that may be of any kind.  A fault in it is forgotten, and reading goes on from where it
stopped, even if that is in the middle of the value. -/
def attempt (item : Reader α) : Reader Unit := fun s => .ok ((), stop (item s))

/-- Whether another element follows.  If so, what is left starts with it; if not, with the closing
bracket. -/
def hasElement (first : Bool) (s : Bytes) : Except Fault (Bool × Bytes) :=
  match skipSpace s with
  | [] => faultAt .endInList []
  | 0x5d :: r => .ok (false, 0x5d :: r)
  | b :: r =>
    if first then .ok (true, b :: r)
    else if b = 0x2c then
      match skipSpace r with
      | [] => faultAt .endInValue []
      | 0x5d :: r => faultOn .trailingComma (0x5d :: r)
      | r => .ok (true, r)
    else faultOn .expectedCommaOrListEnd (b :: r)

def closeList (s : Bytes) : Except Fault Bytes :=
  match skipSpace s with
  | [] => faultAt .endInList []
  | 0x5d :: r => .ok r
  | 0x2c :: r =>
    match skipSpace r with
    | 0x5d :: r => faultOn .trailingComma (0x5d :: r)
    | r => faultOn .trailingCharacters r
  | s => faultOn .trailingCharacters s

/-- The elements up to the closing bracket.  Each takes at least one byte, so as many steps as
there are bytes in `fuel` are enough when `fuel` is the list itself. -/
def elements (item : Reader α) : (fuel : Bytes) → (first : Bool) → Reader (List α)
  | [], _, s => faultAt .endInList s
  | _ :: fuel, first, s => do
    let (more, s) ← hasElement first s
    if more then
      let (x, s) ← item s
      let (xs, s) ← elements item fuel false s
      return (x :: xs, s)
    else
      return ([], s)

def bracketed (wanted : String) (body : Bytes → Reader α) : Reader α := fun s => do
  match skipSpace s with
  | 0x5b :: r =>
    let (x, r) ← body (0x5b :: r) r
    let r ← closeList r
    return (x, r)
  | s => refuse wanted s

def list (item : Reader α) : Reader (List α) :=
  bracketed "a sequence" fun whole => elements item whole true

/-- A fault about a list that ended too early or too late, which stands after its bracket. -/
def faultAfterList (cause : Cause) (s : Bytes) : Except Fault α :=
  match s with
  | 0x5d :: r => faultAt cause r
  | s => faultAt cause s

/-- Whether another member follows.  If so, what is left starts after the quote of its name; if
not, with the closing bracket. -/
def hasMember (first : Bool) (s : Bytes) : Except Fault (Bool × Bytes) :=
  match skipSpace s with
  | [] => faultAt .endInObject []
  | 0x7d :: r => .ok (false, 0x7d :: r)
  | b :: r =>
    if first then
      if b = 0x22 then .ok (true, r) else faultOn .keyNotText (b :: r)
    else if b = 0x2c then
      match skipSpace r with
      | [] => faultAt .endInValue []
      | 0x22 :: r => .ok (true, r)
      | 0x7d :: r => faultOn .trailingComma (0x7d :: r)
      | r => faultOn .keyNotText r
    else faultOn .expectedCommaOrObjectEnd (b :: r)

def closeObject (s : Bytes) : Except Fault Bytes :=
  match skipSpace s with
  | [] => faultAt .endInObject []
  | 0x7d :: r => .ok r
  | 0x2c :: r => faultOn .trailingComma (0x2c :: r)
  | s => faultOn .trailingCharacters s

def colon (s : Bytes) : Except Fault Bytes :=
  match skipSpace s with
  | [] => faultAt .endInObject []
  | 0x3a :: r => .ok r
  | s => faultOn .expectedColon s

def entries (item : Reader α) : (fuel : Bytes) → (first : Bool) → Reader (List (String × α))
  | [], _, s => faultAt .endInObject s
  | _ :: fuel, first, s => do
    let (more, s) ← hasMember first s
    if more then
      let (name, s) ← readText s
      let s ← colon s
      let (x, s) ← item s
      let (rest, s) ← entries item fuel false s
      return ((name, x) :: rest, s)
    else
      return ([], s)

def map (item : Reader α) : Reader (List (String × α)) := fun s => do
  match skipSpace s with
  | 0x7b :: r =>
    let (members, r) ← entries item (0x7b :: r) true r
    let r ← closeObject r
    return (members, r)
  | s => refuse "a map" s

/-- A member of a record under construction. -/
structure Member (σ : Type) where
  name : String
  read : σ → Reader σ
  /-- What a list that ends before this member means. -/
  absent : σ → Option σ

/-- A member that may be null, and that a list has to hold. -/
def optionalMember (name : String) (item : Reader α) (set : σ → Option α → σ) :
    Member σ where
  name := name
  read draft s := (optional item s).map fun p => (set draft p.1, p.2)
  absent _ := none

def faultAfterName (cause : Cause) (s : Bytes) : Except Fault α :=
  match skipSpace s with
  | 0x7d :: r => faultAt cause r
  | s => faultAt cause s

/-- Fills a record from members in any order; no name may come twice. -/
def fill (members : List (Member σ)) :
    (fuel : Bytes) → (first : Bool) → (seen : List String) → σ → Reader σ
  | [], _, _, _, s => faultAt .endInObject s
  | _ :: fuel, first, seen, draft, s => do
    let (more, s) ← hasMember first s
    if more then
      let (name, s) ← readText s
      match members.find? (·.name == name) with
      | none =>
        let s ← colon s
        let (_, s) ← ignored s
        fill members fuel false seen draft s
      | some m =>
        if name ∈ seen then faultAfterName (.duplicateMember name) s
        else
          let s ← colon s
          let (draft, s) ← m.read draft s
          fill members fuel false (name :: seen) draft s
    else
      return (draft, s)

def fillInOrder (wanted : String) (read : Nat) : List (Member σ) → σ → Reader σ
  | [], draft, s => .ok (draft, s)
  | m :: ms, draft, s => do
    let (more, s) ← hasElement (read == 0) s
    if more then
      let (draft, s) ← m.read draft s
      fillInOrder wanted (read + 1) ms draft s
    else
      match m.absent draft with
      | some draft => fillInOrder wanted (read + 1) ms draft s
      | none => faultAfterList (.wrongLength read wanted) s

/-- A record of a given name; `finish` may still find a member missing. -/
def record (name : String) (members : List (Member σ)) (draft : σ)
    (finish : σ → Except Cause α) : Reader α := fun s => do
  let done := fun (draft : σ) (r : Bytes) => match finish draft with
    | .ok x => Except.ok (x, r)
    | .error cause => faultAt cause r
  match skipSpace s with
  | 0x5b :: r =>
    let count := members.length
    let wanted := name ++ " with " ++ toString count ++ (if count = 1 then " element" else " elements")
    let (draft, r) ← fillInOrder wanted 0 members draft r
    let r ← closeList r
    done draft r
  | 0x7b :: r =>
    let (draft, r) ← fill members (0x7b :: r) true [] draft r
    let r ← closeObject r
    done draft r
  | s => refuse name s

/-- Reads a whole document, in which nothing but blanks may follow the value. -/
def document (item : Reader α) (doc : Bytes) : Except String α :=
  let result := do
    let (x, s) ← item doc
    match skipSpace s with
    | [] => .ok x
    | s => faultOn .trailingCharacters s
  result.mapError (Fault.message doc)

end Json
end TenantGate
