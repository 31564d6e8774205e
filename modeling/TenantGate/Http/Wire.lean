import TenantGate.Http.Message
/-!
# Messages on a connection

A request is a line, header fields and a body whose length a field tells.  Requests follow one
another on a connection; what is not a request is answered once, and nothing is read after it.
-/

namespace TenantGate
namespace Wire

def lineFeed : UInt8 := 0x0a

def carriageReturn : UInt8 := 0x0d

def line? (s : Bytes) : Option (Bytes × Bytes) :=
  match s.dropWhile (· != lineFeed) with
  | [] => none
  | _ :: rest =>
    let line := s.takeWhile (· != lineFeed)
    some (if line.getLast? = some carriageReturn then line.dropLast else line, rest)

def isBlank (b : UInt8) : Bool := b == 0x20 || b == 0x09

def trim (b : Bytes) : Bytes := ((b.dropWhile isBlank).reverse.dropWhile isBlank).reverse

/-- A field: a name, a colon and a value with blanks around it. -/
def field? (line : Bytes) : Option (HeaderName × Bytes) := do
  let name ← HeaderName.of? (← Bytes.text? (line.takeWhile (· != 0x3a)))
  match line.dropWhile (· != 0x3a) with
  | [] => none
  | _ :: value => if Headers.isValue (trim value) then some (name, trim value) else none

def fields? (s : Bytes) : Option (List (HeaderName × Bytes) × Bytes) :=
  match line? s with
  | none => none
  | some ([], rest) => some ([], rest)
  | some (line, rest) =>
    if rest.length < s.length then do
      let f ← field? line
      let (fs, rest) ← fields? rest
      return (f :: fs, rest)
    else none
termination_by s.length

def requestLine? (line : Bytes) : Option (String × Uri) := do
  match (← Bytes.text? line).splitOn " " with
  | [method, target, version] =>
    if Request.isMethod method && ["HTTP/1.1", "HTTP/1.0"].contains version then
      return (method, ← (Uri.parse target).toOption)
    else none
  | _ => none

/-- How many bytes the body has; one field says so, or there is none. -/
def bodyLength? (h : Headers) : Option Nat :=
  if h.contains "transfer-encoding" then none
  else match h.values "content-length" with
    | [] => some 0
    | [v] => (Bytes.text? v).bind String.toNat?
    | _ => none

def request? (peer : Option String) (s : Bytes) : Option (Request × Bytes) := do
  let (line, rest) ← line? s
  let (method, uri) ← requestLine? line
  let (fields, rest) ← fields? rest
  let headers : Headers := ⟨fields⟩
  let length ← bodyLength? headers
  let body : Body := ⟨rest.take length, length ≤ rest.length⟩
  return (⟨method, uri, headers, body, peer⟩, rest.drop length)

def isLast (h : Headers) : Bool :=
  (h.values "connection").any fun v => ((Headers.visible? v).map (·.toLower)) == some "close"

/-- All requests of a connection, and whether all that was sent is made of them. -/
def requests (peer : Option String) (s : Bytes) : List Request × Bool :=
  if s.isEmpty then ([], true)
  else match request? peer s with
    | none => ([], false)
    | some (request, rest) =>
      if isLast request.headers then ([request], true)
      else if rest.length < s.length then
        let (more, sound) := requests peer rest
        (request :: more, sound)
      else ([request], false)
termination_by s.length

def endOfLine : Bytes := [carriageReturn, lineFeed]

def responseBytes (r : Response) : Bytes :=
  let length := (HeaderName.contentLength, Bytes.ofText (Nat.repr r.body.bytes.length))
  let fields := if r.headers.contains "content-length" then r.headers.fields
    else r.headers.fields ++ [length]
  let reason := (Status.reason? r.status).elim "" (" " ++ ·)
  Bytes.ofText ("HTTP/1.1 " ++ Nat.repr r.status ++ reason) ++ endOfLine
    ++ fields.flatMap (fun f => Bytes.ofText (f.1.text ++ ": ") ++ f.2 ++ endOfLine)
    ++ endOfLine ++ r.body.bytes

def refusal : Response where
  status := 400
  headers := ⟨[(.connection, Bytes.ofText "close")]⟩

end Wire
end TenantGate
