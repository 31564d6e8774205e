import TenantGate.Url.Basic
/-!
# Reading URLs

A URL is read without a base.  Control characters and spaces around it are ignored, and so are
tabs and line ends inside it.
-/

namespace TenantGate
namespace Url

def isControlOrSpace (c : Char) : Bool := c.toNat ≤ 0x20

def cleaned (text : String) : List Char :=
  let s := text.toList.dropWhile isControlOrSpace
  ((s.reverse.dropWhile isControlOrSpace).reverse).filter (!isDropped ·)

def isSchemeChar (c : Char) : Bool := c.isAlphanum || c == '+' || c == '-' || c == '.'

def splitScheme? (s : List Char) : Option (String × List Char) :=
  match s with
  | c :: _ =>
    if c.isAlpha then
      match s.dropWhile isSchemeChar with
      | ':' :: rest => some ((String.ofList (s.takeWhile isSchemeChar)).toLower, rest)
      | _ => none
    else none
  | [] => none

def isAuthorityEnd (special : Bool) (c : Char) : Bool :=
  c == '/' || c == '?' || c == '#' || (special && c == '\\')

def splitUser? (s : List Char) : Option (List Char × List Char) :=
  if s.contains '@' then
    let host := (s.reverse.takeWhile (· != '@')).reverse
    some (s.take (s.length - host.length - 1), host)
  else none

/-- The host up to a colon outside brackets, and what follows it. -/
def splitHost : (bracket : Bool) → List Char → List Char × List Char
  | _, [] => ([], [])
  | bracket, c :: s =>
    if c = ':' ∧ !bracket then ([], c :: s)
    else
      let (host, rest) := splitHost (if c = '[' then true else if c = ']' then false else bracket) s
      (c :: host, rest)

/-- A number after the colon, which is left out if it is the usual one. -/
def readPortNumber (scheme : String) (s : List Char) : Except UrlError (Option Nat) :=
  if !s.all Char.isDigit then .error .invalidPortNumber
  else if s.isEmpty then .ok none
  else
    let n := s.foldl (fun n c => n * 10 + (c.toNat - 48)) 0
    if 65535 < n then .error .invalidPortNumber
    else .ok (if defaultPortNumber? scheme = some n then none else some n)

def readAuthority (scheme : String) (s : List Char) : Except UrlError UrlAuthority := do
  let special := isSpecial scheme
  let (user, place) := match splitUser? s with
    | some (user, place) => (user, place)
    | none => ([], s)
  if (splitUser? s).isSome ∧ user.isEmpty ∧ place.isEmpty then .error .emptyHost
  let username := user.takeWhile (· != ':')
  let password := (user.dropWhile (· != ':')).drop 1
  let encode := fun l => String.ofList (Percent.encode isUserChar l)
  let (name, rest) := splitHost false place
  let host ← if special then
      if name.isEmpty then Except.error .emptyHost else Host.parse name
    else Host.parseOpaque name
  if host.isEmpty ∧ !rest.isEmpty then .error .emptyHost
  let portNumber ← readPortNumber scheme (rest.drop 1)
  if host.isEmpty ∧ !user.isEmpty then .error .emptyHost
  return ⟨encode username, encode password, host, portNumber⟩

def withRest (u : Url) (s : List Char) : Url :=
  let (query, rest) := match s with
    | '?' :: r => (some (r.takeWhile (· != '#')), r.dropWhile (· != '#'))
    | s => (none, s)
  let fragment := match rest with
    | '#' :: r => some (String.ofList (Percent.encode isFragmentChar r))
    | _ => none
  { u with query := query.map (writeQuery (isSpecial u.scheme)), fragment := fragment }

def isPathEnd (c : Char) : Bool := c == '?' || c == '#'

def readHierarchy (scheme : String) (s : List Char) : Except UrlError Url := do
  let special := isSpecial scheme
  let authority ← readAuthority scheme (s.takeWhile (!isAuthorityEnd special ·))
  let rest := s.dropWhile (!isAuthorityEnd special ·)
  let path := rest.takeWhile (!isPathEnd ·)
  let written := if special || !path.isEmpty then writePath special path else ""
  return withRest ⟨scheme, some authority, written, none, none⟩ (rest.dropWhile (!isPathEnd ·))

/-- A file URL, which has a host only after two slashes. -/
def readFile (s : List Char) : Except UrlError Url := do
  let (host, rest) ← match s with
    | a :: b :: r =>
      if isSlash true a ∧ isSlash true b then
        let name := r.takeWhile (!isAuthorityEnd true ·)
        let host ← if name.isEmpty then Except.ok "" else Host.parse name
        Except.ok (if host == "localhost" then "" else host, r.dropWhile (!isAuthorityEnd true ·))
      else Except.ok ("", s)
    | s => Except.ok ("", s)
  let path := writePath true (rest.takeWhile (!isPathEnd ·))
  return withRest ⟨"file", some { host := host }, path, none, none⟩ (rest.dropWhile (!isPathEnd ·))

def parse (text : String) : Except UrlError Url :=
  match splitScheme? (cleaned text) with
  | none => .error .relativeWithoutBase
  | some (scheme, s) =>
    if scheme == "file" then readFile s
    else if isSpecial scheme then readHierarchy scheme (s.dropWhile (isSlash true))
    else match s with
      | '/' :: '/' :: r => readHierarchy scheme r
      | '/' :: r =>
        let path := r.takeWhile (!isPathEnd ·)
        .ok (withRest ⟨scheme, none, writePath false ('/' :: path), none, none⟩
          (r.dropWhile (!isPathEnd ·)))
      | s =>
        let path := String.ofList (Percent.encode isPlain (s.takeWhile (!isPathEnd ·)))
        .ok (withRest ⟨scheme, none, path, none, none⟩ (s.dropWhile (!isPathEnd ·)))

end Url
end TenantGate
