import TenantGate.Bytes
/-!
# Targets of requests

A request names its target by a path with a query, by an absolute URI, by an authority alone or by
an asterisk.  Nothing is decoded or normalised here: the path and the query are kept as written,
and a fragment is dropped.
-/

namespace TenantGate

inductive UriError
  | invalidChar
  | invalidAuthority
  | invalidFormat
  | tooLong
  | empty
  | schemeTooLong
  deriving DecidableEq, Repr

def UriError.message : UriError → String
  | .invalidChar => "invalid uri character"
  | .invalidAuthority => "invalid authority"
  | .invalidFormat => "invalid format"
  | .tooLong => "uri too long"
  | .empty => "empty string"
  | .schemeTooLong => "scheme too long"

structure Uri where
  scheme : Option String := none
  authority : Option String := none
  path : String
  query : Option String := none
  deriving DecidableEq, Repr

namespace Uri

def maxLength : Nat := 65534

def isPathChar (c : Char) : Bool :=
  let n := c.toNat
  n == 0x21 || n == 0x22 || (0x24 ≤ n ∧ n ≤ 0x3b) || n == 0x3d || (0x40 ≤ n ∧ n ≤ 0x5f)
    || (0x61 ≤ n ∧ n ≤ 0x7e) || 0x80 ≤ n

def isQueryChar (c : Char) : Bool :=
  let n := c.toNat
  n == 0x21 || (0x24 ≤ n ∧ n ≤ 0x3b) || n == 0x3d || (0x3f ≤ n ∧ n ≤ 0x7e) || 0x80 ≤ n

def isPathEnd (c : Char) : Bool := c == '?' || c == '#'

def readPath (scheme authority : Option String) (s : List Char) : Except UriError Uri :=
  let path := s.takeWhile (!isPathEnd ·)
  let rest := s.dropWhile (!isPathEnd ·)
  let written := if path.isEmpty then "/" else String.ofList path
  if !path.all isPathChar then .error .invalidChar
  else match rest with
    | '?' :: r =>
      let query := r.takeWhile (· != '#')
      if query.all isQueryChar then .ok ⟨scheme, authority, written, some (String.ofList query)⟩
      else .error .invalidChar
    | _ => .ok ⟨scheme, authority, written, none⟩

def isAuthorityChar (c : Char) : Bool :=
  c.isAlphanum || "!$&'()*+,-.:;=@[]_~".toList.contains c

def isAuthorityEnd (c : Char) : Bool := c == '/' || c == '?' || c == '#'

/-- What has been seen of an authority.  Colons and percent signs count since the last `@` or
closing bracket. -/
structure Seen where
  colons : Nat := 0
  opened : Bool := false
  closed : Bool := false
  percent : Bool := false
  endsAtSign : Bool := false
  deriving DecidableEq, Repr

def Seen.next (seen : Seen) (c : Char) : Except UriError Seen :=
  let seen := { seen with endsAtSign := c == '@' }
  if c = ':' then
    if 8 ≤ seen.colons then .error .invalidAuthority
    else .ok { seen with colons := seen.colons + 1 }
  else if c = '[' then
    if seen.percent || seen.opened then .error .invalidAuthority
    else .ok { seen with opened := true }
  else if c = ']' then
    if !seen.opened || seen.closed then .error .invalidAuthority
    else .ok { seen with closed := true, colons := 0, percent := false }
  else if c = '@' then .ok { seen with colons := 0, percent := false }
  else if c = '%' then .ok { seen with percent := true }
  else if isAuthorityChar c then .ok seen
  else .error .invalidChar

/-- An authority has paired brackets, at most one colon outside them and outside the user
information, and something after its user information, which alone may be percent-encoded. -/
def Seen.isComplete (seen : Seen) : Bool :=
  seen.opened == seen.closed && seen.colons ≤ 1 && !seen.endsAtSign && !seen.percent

def checkAuthority (s : List Char) : Except UriError Unit := do
  let seen ← s.foldlM Seen.next {}
  if seen.isComplete then .ok () else .error .invalidAuthority

def isSchemeChar (c : Char) : Bool := c.isAlphanum || c == '+' || c == '-' || c == '.' || c == '~'

/-- The scheme in front of `://`, and what follows.  The two well-known schemes are read in any
case. -/
def splitScheme? (s : List Char) : Except UriError (Option (String × List Char)) :=
  let name := s.takeWhile isSchemeChar
  match s.dropWhile isSchemeChar with
  | ':' :: '/' :: '/' :: rest =>
    let lower := (String.ofList name).toLower
    if lower == "http" || lower == "https" then .ok (some (lower, rest))
    else if 64 < name.length then .error .schemeTooLong
    else .ok (some (String.ofList name, rest))
  | _ => .ok none

def readAuthority (text : String) : Except UriError Uri := do
  let s := text.toList
  let authority := s.takeWhile (!isAuthorityEnd ·)
  checkAuthority authority
  if authority.length = s.length then .ok ⟨none, some text, "", none⟩
  else if s.length = 1 then .error .invalidChar
  else .error .invalidFormat

def readAbsolute (scheme : String) (s : List Char) : Except UriError Uri := do
  let authority := s.takeWhile (!isAuthorityEnd ·)
  let rest := s.dropWhile (!isAuthorityEnd ·)
  checkAuthority authority
  if authority.isEmpty then .error .invalidFormat
  else readPath (some scheme) (some (String.ofList authority)) rest

def parse (text : String) : Except UriError Uri :=
  if maxLength < text.utf8ByteSize then .error .tooLong
  else match text.toList with
    | [] => .error .empty
    | ['*'] => .ok ⟨none, none, "*", none⟩
    | '/' :: s => readPath none none ('/' :: s)
    | s => match splitScheme? s with
      | .error e => .error e
      | .ok (some (scheme, rest)) => readAbsolute scheme rest
      | .ok none => readAuthority text

def text (u : Uri) : String :=
  (match u.scheme with | some s => s ++ "://" | none => "")
    ++ u.authority.getD "" ++ u.path
    ++ (match u.query with | some q => "?" ++ q | none => "")

end Uri
end TenantGate
