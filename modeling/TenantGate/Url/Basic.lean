import TenantGate.Url.Host
/-!
# URLs

A URL is kept in its parts, each in the form in which it is written.  A part is changed by writing
a new text for it: the path is then taken apart into segments, dot segments are resolved, and
characters that may not stand there are percent-encoded.
-/

namespace TenantGate

structure UrlAuthority where
  username : String := ""
  password : String := ""
  host : String
  portNumber : Option Nat := none
  deriving DecidableEq, Repr

structure Url where
  scheme : String
  authority : Option UrlAuthority := none
  path : String := ""
  query : Option String := none
  fragment : Option String := none
  deriving DecidableEq, Repr

namespace Url

/-- The number that a well-known scheme implies, and whether the scheme is well known. -/
def defaultPortNumber? : String → Option Nat
  | "http" => some 80
  | "https" => some 443
  | "ws" => some 80
  | "wss" => some 443
  | "ftp" => some 21
  | _ => none

def isSpecial (scheme : String) : Bool := (defaultPortNumber? scheme).isSome || scheme == "file"

def isPlain (c : Char) : Bool := 0x20 ≤ c.toNat && c.toNat < 0x7f

def isFragmentChar (c : Char) : Bool := isPlain c && !" \"<>\x60".toList.contains c

def isPathChar (c : Char) : Bool := isPlain c && !" \"<>\x60#?\x7b\x7d".toList.contains c

def isQueryChar (special : Bool) (c : Char) : Bool :=
  isPlain c && !" \"#<>".toList.contains c && !(special && c == '\'')

def isUserChar (c : Char) : Bool :=
  isPlain c && !" \"<>\x60#?\x7b\x7d/:;=@[\\]^|".toList.contains c

def isDoubleDot (segment : List Char) : Bool :=
  ["..", ".%2e", "%2e.", "%2e%2e"].contains (String.ofList segment).toLower

def isSingleDot (segment : List Char) : Bool :=
  [".", "%2e"].contains (String.ofList segment).toLower

/-- A letter and a colon or a bar: the root of a drive, which is never left. -/
def isDrive (segment : List Char) : Bool :=
  match segment with
  | [a, b] => a.isAlpha && (b == ':' || b == '|')
  | _ => false

/-- The path without its last segment; a path is given by its characters from the last one. -/
def leave (path : List Char) : List Char :=
  let shorter := match path with
    | '/' :: before =>
      let last := (before.takeWhile (· != '/')).reverse
      if before.contains '/' ∧ !isDrive last then before else path
    | path => path
  shorter.dropWhile (· != '/')

def enter (path segment : List Char) (slash : Bool) : List Char :=
  if isDoubleDot segment then
    let path := leave path
    if slash ∧ path.head? ≠ some '/' then '/' :: path else path
  else if isSingleDot segment then
    if path.head? = some '/' then path else '/' :: path
  else
    let path := segment.reverse ++ path
    if slash then '/' :: path else path

def enterAll (path : List Char) : List (List Char) → List Char
  | [] => path
  | [last] => enter path last false
  | segment :: rest => enterAll (enter path segment true) rest

/-- A backslash is a slash in a URL of a well-known scheme. -/
def isSlash (special : Bool) (c : Char) : Bool := c == '/' || (special && c == '\\')

/-- Tabs and line ends are dropped wherever they stand. -/
def isDropped (c : Char) : Bool := c == '\t' || c == '\n' || c == '\r'

/-- The written form of a path text.  A URL of a well-known scheme always has a path. -/
def writePath (special : Bool) (text : List Char) : String :=
  let s := text.filter (!isDropped ·)
  let s := match s with
    | c :: r => if isSlash special c then r else s
    | [] => s
  let segments := (s.splitOnP (isSlash special)).map (Percent.encode isPathChar)
  String.ofList (enterAll ['/'] segments).reverse

/-- Control characters at both ends and dropped characters are not part of a query. -/
def writeQuery (special : Bool) (text : List Char) : String :=
  String.ofList (Percent.encode (isQueryChar special) (text.filter (!isDropped ·)))

def UrlAuthority.text (a : UrlAuthority) : String :=
  let password := if a.password.isEmpty then "" else ":" ++ a.password
  let user := if a.username.isEmpty && a.password.isEmpty then "" else a.username ++ password ++ "@"
  user ++ a.host ++ (match a.portNumber with | some n => ":" ++ Nat.repr n | none => "")

def queryText (u : Url) : String := match u.query with | some q => "?" ++ q | none => ""

def text (u : Url) : String :=
  u.scheme ++ ":"
    ++ (match u.authority with
        | some a => "//" ++ UrlAuthority.text a
        | none => if u.path.startsWith "//" then "/." else "")
    ++ u.path ++ u.queryText
    ++ (match u.fragment with | some f => "#" ++ f | none => "")

def host? (u : Url) : Option String := u.authority.map (·.host)

def setPath (u : Url) (path : String) : Url :=
  { u with path := writePath (isSpecial u.scheme) path.toList }

def setQuery (u : Url) (query : Option String) : Url :=
  { u with query := query.map fun q => writeQuery (isSpecial u.scheme) q.toList }

end Url
end TenantGate
