import TenantGate.Json.Read
import TenantGate.Token.Algorithm
import TenantGate.Token.EmbeddedKey
/-!
# The header of a token

A header names the algorithm of the signature and perhaps the key.  Its other members are read for
their kind only.
-/

namespace TenantGate

structure TokenHeader where
  algorithm : Algorithm
  keyId : Option String := none
  deriving DecidableEq, Repr

namespace TokenHeader

open Json

/-- The name of an algorithm, also as the only member of an object whose value is null. -/
def readAlgorithm : Reader Algorithm := fun s => do
  let name := fun (s : Bytes) => do
    let (t, r) ← readText s
    match Algorithm.ofName? t with
    | some a => Except.ok (a, r)
    | none => faultAt (.unknownName t (Algorithm.all.map Algorithm.name)) r
  match skipSpace s with
  | [] => faultAt .endInValue []
  | 0x22 :: r => name r
  | 0x7b :: r =>
    match skipSpace r with
    | 0x22 :: r =>
      let (a, r) ← name r
      let r ← colon r
      match skipSpace r with
      | 0x6e :: r =>
        let r ← word [0x75, 0x6c, 0x6c] r
        match skipSpace r with
        | 0x7d :: r => return (a, r)
        | [] => faultAt .endInObject []
        | r => faultAt .expectedValue r
      | r => refuse "unit" r
    | r => refuse "variant identifier" r
  | s => faultOn .expectedValue s

structure Draft where
  algorithm : Option Algorithm := none
  keyId : Option String := none

/-- A member that is read for its kind only. -/
def checkedMember {α : Type} (name : String) (item : Reader α) : Member Draft :=
  optionalMember name item fun d _ => d

def members : List (Member Draft) := [
  checkedMember "typ" text,
  { name := "alg"
    read := fun d s => (readAlgorithm s).map fun p => ({ d with algorithm := some p.1 }, p.2)
    absent := fun _ => none },
  checkedMember "cty" text,
  checkedMember "jku" text,
  checkedMember "jwk" EmbeddedKey.read,
  optionalMember "kid" text fun d x => { d with keyId := x },
  checkedMember "x5u" text,
  checkedMember "x5c" (list text),
  checkedMember "x5t" text,
  checkedMember "x5t#S256" text]

def finish (d : Draft) : Except Cause TokenHeader :=
  match d.algorithm with
  | some a => .ok ⟨a, d.keyId⟩
  | none => .error (.missingMember "alg")

def read : Reader TokenHeader := record "struct Header" members {} finish

def ofDocument (doc : Bytes) : Except String TokenHeader := document read doc

end TokenHeader
end TenantGate
