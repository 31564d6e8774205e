import TenantGate.Digest.Sha1
import TenantGate.Json.Read
import TenantGate.Key.Rsa
import TenantGate.Text.Blank
/-!
# Key sets

Tokens are signed by keys of a set, each with a name that is worked out from its text, or by one
more key without a name.  The set is read from a JSON object of names and texts; it is refused as
a whole if one of its keys cannot be read or has another name than the one that it should have.
-/

namespace TenantGate

structure KeySet where
  /-- The keys by their names, no name twice. -/
  keys : List (String × RsaKey) := []
  legacy : Option RsaKey := none
  deriving DecidableEq, Repr

inductive KeySetError
  | missingVariable (name : String)
  | emptyVariable (name : String)
  | invalidJson (name reason : String)
  | invalidPem (keyId : String)
  | keyIdMismatch (configured calculated : String)
  deriving DecidableEq, Repr

namespace KeySetError

def message : KeySetError → String
  | .missingVariable name => name ++ " must be set"
  | .emptyVariable name => name ++ " must not be empty"
  | .invalidJson name reason => "error while JSON-parsing " ++ name ++ ": " ++ reason
  | .invalidPem keyId => "could not parse RSA public key " ++ keyId
  | .keyIdMismatch configured calculated =>
    "key ID from config (" ++ configured ++ ") does not match key ID calculated from key ("
      ++ calculated ++ ")"

end KeySetError

namespace KeySet

def setVariable : String := "API_AUTHTOKEN_VERIFICATION_PUBKEY_SET"

def legacyVariable : String := "API_AUTHTOKEN_VERIFICATION_PUBKEY"

/-- The name of a key: the digest of its text without blanks around it. -/
def keyId (pem : String) : String := Bytes.hex (Sha1.hash (Bytes.ofText (Text.trim pem)))

def readKey (name pem : String) : Except KeySetError RsaKey :=
  match RsaKey.ofPem? (Text.trim pem) with
  | some key => .ok key
  | none => .error (.invalidPem name)

def readEntry (configured pem : String) : Except KeySetError (String × RsaKey) := do
  let key ← readKey configured pem
  let calculated := keyId pem
  if calculated = configured then return (configured, key)
  else throw (.keyIdMismatch configured calculated)

/-- The last value of each name, in the order in which the names come first. -/
def lastValues (members : List (String × String)) : List (String × String) :=
  (members.map (·.1)).eraseDups.filterMap fun name =>
    (members.reverse.lookup name).map fun value => (name, value)

/-- An absent or empty text means that there is no such key. -/
def readLegacy : Option String → Except KeySetError (Option RsaKey)
  | none => .ok none
  | some "" => .ok none
  | some pem => (readKey "legacy" pem).map some

def ofSources (set legacy : Option String) : Except KeySetError KeySet := do
  let legacy ← readLegacy legacy
  let text ← match set with
    | none => throw (.missingVariable setVariable)
    | some "" => throw (.emptyVariable setVariable)
    | some text => pure text
  let members ← (Json.document (Json.map Json.text) (Bytes.ofText text)).mapError
    (KeySetError.invalidJson setVariable)
  let keys ← (lastValues members).mapM fun (name, pem) => readEntry name pem
  return ⟨keys, legacy⟩

def isEmpty (s : KeySet) : Bool := s.keys.isEmpty

def size (s : KeySet) : Nat := s.keys.length

def find? (s : KeySet) : Option String → Option RsaKey
  | some name => s.keys.lookup name
  | none => s.legacy

def describe (s : KeySet) : String :=
  let names := (s.keys.map (·.1)).mergeSort (· ≤ ·)
  "KeySet \x7b key_ids: [" ++ ", ".intercalate (names.map Text.quoted) ++ "], fallback: "
    ++ (if s.legacy.isSome then "true" else "false") ++ " \x7d"

end KeySet
end TenantGate
