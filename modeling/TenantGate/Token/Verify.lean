import TenantGate.Key.KeySet
import TenantGate.Token.Claims
import TenantGate.Token.Header
/-!
# Verifying tokens

A token has three parts with dots between them: a header, the claims and a signature of both.  It
is good if the key that the header names has signed it and if its claims allow its use now.
-/

namespace TenantGate

inductive TokenFault
  | invalidToken
  | base64 (fault : Base64.Fault)
  | json (reason : String)
  | invalidSignature
  deriving DecidableEq, Repr

def TokenFault.message : TokenFault → String
  | .invalidToken => "InvalidToken"
  | .base64 fault => "Base64 error: " ++ fault.message
  | .json reason => "JSON error: " ++ reason
  | .invalidSignature => "InvalidSignature"

inductive TokenError
  | malformedHeader (fault : TokenFault)
  | unsupportedAlgorithm (algorithm : Algorithm)
  | unknownKey (keyId : String)
  | noFallbackKey
  | invalid (fault : TokenFault)
  | time (error : TimeError)
  | invalidSubject
  deriving DecidableEq, Repr

namespace TokenError

def message : TokenError → String
  | .malformedHeader fault => "jwt verif: cannot decode header: " ++ fault.message
  | .unsupportedAlgorithm a => "jwt verif: invalid alg: " ++ a.name
  | .unknownKey keyId => "jwt verif: unknown kid: " ++ keyId
  | .noFallbackKey => "jwt verif: token has no kid and no fallback key is configured"
  | .invalid fault => "jwt verification failed: " ++ fault.message
  | .time .expired => "jwt verification failed: token is expired"
  | .time .notYetValid => "jwt verification failed: token is not valid yet"
  | .time .issuedInFuture => "jwt verification failed: token used before issued"
  | .invalidSubject => "invalid subject (tenant- prefix missing)"

end TokenError

structure TokenParts where
  header : Bytes
  payload : Bytes
  signature : Bytes
  deriving DecidableEq, Repr

namespace Token

def dot : UInt8 := 0x2e

def splitLastDot? (s : Bytes) : Option (Bytes × Bytes) :=
  let last := s.reverse.takeWhile (· != dot)
  match s.reverse.dropWhile (· != dot) with
  | _ :: before => some (before.reverse, last.reverse)
  | [] => none

def parts? (token : Bytes) : Option TokenParts := do
  let (signed, signature) ← splitLastDot? token
  let (header, payload) ← splitLastDot? signed
  return ⟨header, payload, signature⟩

def signedBytes (p : TokenParts) : Bytes := p.header ++ dot :: p.payload

def decode (part : Bytes) : Except TokenFault Bytes :=
  (Base64.decodeUnpadded .url part).mapError .base64

def readHeader (part : Bytes) : Except TokenFault TokenHeader := do
  (TokenHeader.ofDocument (← decode part)).mapError .json

def readClaims (part : Bytes) : Except TokenFault Claims := do
  (Claims.ofDocument (← decode part)).mapError .json

def checkSignature (key : RsaKey) (p : TokenParts) : Except TokenFault Unit := do
  let signature ← decode p.signature
  if key.verifies (signedBytes p) signature then return ()
  else throw .invalidSignature

def findKey (keys : KeySet) (keyId : Option String) : Except TokenError RsaKey :=
  match keys.find? keyId, keyId with
  | some key, _ => .ok key
  | none, some keyId => .error (.unknownKey keyId)
  | none, none => .error .noFallbackKey

/-- The tenant that a token was issued for. -/
def verify (keys : KeySet) (now : Int) (token : String) : Except TokenError String := do
  let parts ← match parts? (Bytes.ofText token) with
    | some parts => pure parts
    | none => throw (.malformedHeader .invalidToken)
  let header ← (readHeader parts.header).mapError .malformedHeader
  if header.algorithm ≠ .rs256 then throw (.unsupportedAlgorithm header.algorithm)
  let key ← findKey keys header.keyId
  (checkSignature key parts).mapError .invalid
  let claims ← (readClaims parts.payload).mapError .invalid
  (claims.checkTimes now).mapError .time
  match claims.tenant? with
  | some tenant => return tenant
  | none => throw .invalidSubject

end Token
end TenantGate
