import TenantGate.Json.Value
/-!
# Keys inside headers

A header may hold a key of its own.  It is never used, but a header in which it does not have the
form of a key is an error.  Some members describe the key and may be missing; the others are the
numbers and names that a key of its kind consists of.
-/

namespace TenantGate
namespace EmbeddedKey

open Json

abbrev Check := Value → Except Cause Unit

def text : Check
  | .text _ => .ok ()
  | v => .error (v.refused "a string")

def texts : Check
  | .list elements => elements.forM text
  | v => .error (v.refused "a sequence")

/-- Any name, also as the only member of an object whose value is null or empty. -/
def anyName : Check
  | .text _ => .ok ()
  | .object [(_, .null)] => .ok ()
  | .object [(_, .object [])] => .ok ()
  | .object [(_, v)] => .error (v.refused "unit")
  | .object members => .error (.wrongValue (Value.object members).found "map with a single key")
  | v => .error (v.refused "string or map")

def descriptions : List (String × Check) := [
  ("use", text), ("key_ops", texts), ("alg", anyName), ("kid", text), ("x5u", text),
  ("x5c", texts), ("x5t", text), ("x5t#S256", text)]

def checkDescriptions : (seen : List String) → List (String × Value) → Except Cause Unit
  | _, [] => .ok ()
  | seen, (name, v) :: members =>
    match descriptions.lookup name with
    | none => checkDescriptions seen members
    | some check =>
      if name ∈ seen then .error (.duplicateMember name)
      else do
        if v matches .null then pure () else check v
        checkDescriptions (name :: seen) members

def isText : Value → Bool
  | .text _ => true
  | _ => false

def isName (names : List String) : Value → Bool
  | .text s => names.contains s
  | .object [(s, .null)] => names.contains s
  | _ => false

def curves : List String := ["P-256", "P-384", "P-521", "Ed25519"]

/-- What a key of each kind consists of. -/
def kinds : List (List (String × (Value → Bool))) := [
  [("kty", isName ["EC"]), ("crv", isName curves), ("x", isText), ("y", isText)],
  [("kty", isName ["RSA"]), ("n", isText), ("e", isText)],
  [("kty", isName ["oct"]), ("k", isText)],
  [("kty", isName ["OKP"]), ("crv", isName curves), ("x", isText)]]

/-- Whether there is exactly one member of the name, and with a value as wanted. -/
def hasPart (members : List (String × Value)) (part : String × (Value → Bool)) : Bool :=
  match members.filter (·.1 == part.1) with
  | [(_, v)] => part.2 v
  | _ => false

def check (members : List (String × Value)) : Except Cause Unit := do
  checkDescriptions [] members
  if kinds.any fun parts => parts.all (hasPart members) then return ()
  else throw (.other "data did not match any variant of untagged enum AlgorithmParameters")

def nesting : Nat := 125

/-- A key is an object.  What is wrong with its members is found when it has been read. -/
def read : Reader Unit := fun s =>
  match skipSpace s with
  | 0x7b :: r => do
    let (members, r) ← entries (Value.read nesting) (0x7b :: r) true r
    let r ← closeObject r
    match check members with
    | .ok _ => return ((), r)
    | .error cause => faultAt cause r
  | s => refuse "struct Jwk" s

end EmbeddedKey
end TenantGate
