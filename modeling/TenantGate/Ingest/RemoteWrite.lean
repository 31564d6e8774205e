import TenantGate.Causes
import TenantGate.Network
import TenantGate.Snappy
import TenantGate.Tenant.Resolver
import TenantGate.Text.Base64
import TenantGate.Url.Join
/-!
# Sending series on

Series are posted to one URL on behalf of a tenant.  An answer may send the request to another
place; up to ten such answers are followed.  Any answer that is read to its end counts as success.
-/

namespace TenantGate

inductive EndpointError
  | unsupportedScheme (url : Url)
  | missingHost (url : Url)
  deriving DecidableEq, Repr

def EndpointError.message : EndpointError → String
  | .unsupportedScheme url => "remote_write URL must use http or https: " ++ url.text
  | .missingHost url => "remote_write URL has no host: " ++ url.text

inductive WriteError
  | tooLarge (length : Nat)
  | invalidTenant
  | invalidTarget (url : Url)
  | badRedirect (url : Url)
  | tooManyRedirects (url : Url)
  | send (url : Url) (failure : SendFailure)
  | unreadableAnswer
  deriving DecidableEq, Repr

namespace WriteError

def sendingMark : String := "error while interacting with remote_write endpoint: "

def sending (error : String) (causes : List String) : String :=
  Causes.describe (sendingMark ++ error) (error :: causes)

def message : WriteError → String
  | .tooLarge length => "error while constructing Prometheus protobuf message: "
      ++ "snappy: input buffer (size = " ++ Nat.repr length
      ++ ") is larger than allowed (size = " ++ Nat.repr Snappy.maxLength ++ ")"
  | .invalidTenant => sending "builder error" ["failed to parse header value"]
  | .invalidTarget url =>
    sending ("builder error for url (" ++ url.text ++ ")") ["Parsed Url is not a valid Uri"]
  | .badRedirect url =>
    sending ("builder error for url (" ++ url.text ++ ")") ["URL scheme is not allowed"]
  | .tooManyRedirects url =>
    sending ("error following redirect for url (" ++ url.text ++ ")") ["too many redirects"]
  | .send url failure =>
    sending ("error sending request for url (" ++ url.text ++ ")")
      (failure.messages.1 :: failure.messages.2)
  | .unreadableAnswer => "error while reading upstream response: error decoding response body: "
      ++ "request or response body error: error reading a body from connection: "
      ++ "end of file before message length reached"

end WriteError

structure RemoteWrite where
  url : Url
  deriving DecidableEq, Repr

namespace RemoteWrite

def ofUrl (url : Url) : Except EndpointError RemoteWrite :=
  if url.scheme ≠ "http" ∧ url.scheme ≠ "https" then .error (.unsupportedScheme url)
  else if url.host?.isNone then .error (.missingHost url)
  else .ok ⟨url⟩

def userInfo? (url : Url) : Option (String × String) := do
  let a ← url.authority
  let user ← Bytes.text? (Percent.decode a.username.toList)
  let password ← Bytes.text? (Percent.decode a.password.toList)
  if a.username = "" ∧ a.password = "" then none else some (user, password)

def withoutUser (url : Url) : Url :=
  { url with authority := url.authority.map fun a => { a with username := "", password := "" } }

def basicCredentials (user password : String) : Bytes :=
  Bytes.ofText "Basic " ++ Base64.encodePadded .standard (Bytes.ofText (user ++ ":" ++ password))

/-- The URL to post to, and the credentials that it held. -/
def address (url : Url) : Url × Option Bytes :=
  match userInfo? url with
  | some (user, password) => (withoutUser url, some (basicCredentials user password))
  | none => (url, none)

def versionHeader : HeaderName := ⟨"x-prometheus-remote-write-version", by decide +kernel⟩

def writeHeaders (tenant : String) (credentials : Option Bytes) : Headers :=
  ⟨[(versionHeader, Bytes.ofText "0.1.0"),
    (.contentEncoding, Bytes.ofText "snappy"),
    (.contentType, Bytes.ofText "application/x-protobuf"),
    (Resolver.tenantHeader, Bytes.ofText tenant)]
    ++ (credentials.map fun c => (.authorization, c)).toList
    ++ [(.accept, Bytes.ofText "*/*")]⟩

/-- What is sent to whichever place comes next. -/
structure Parcel where
  method : String
  headers : Headers
  body : Body
  deriving DecidableEq, Repr

def Parcel.addressed (p : Parcel) (target : Uri) (headers : Headers) : OutboundRequest :=
  ⟨p.method, target, headers, p.body⟩

/-- After some answers the body is left behind and the next request only asks. -/
def Parcel.after (p : Parcel) (status : Status) : Parcel :=
  if status = 303 ∨ ((status = 301 ∨ status = 302) ∧ p.method = "POST") then
    { method := if p.method = "HEAD" then "HEAD" else "GET"
      headers := p.headers.removeAll
        ["content-type", "content-length", "content-encoding", "transfer-encoding"]
      body := {} }
  else p

def location? (current : Url) (answer : Response) : Option Url :=
  if Status.isRedirect answer.status then
    (answer.headers.get? "location").bind fun v => (Bytes.text? v).bind current.join?
  else none

def portNumber? (u : Url) : Option Nat :=
  (u.authority.bind (·.portNumber)).or (Url.defaultPortNumber? u.scheme)

/-- Headers for a next place: credentials stay with a host, and the place before is named unless
that would show a protected place to an open one. -/
def nextHeaders (h : Headers) (previous next : Url) : Headers :=
  let h := if previous.host? = next.host? ∧ portNumber? previous = portNumber? next then h
    else h.removeAll
      ["authorization", "cookie", "cookie2", "proxy-authorization", "www-authenticate"]
  if next.scheme = "http" ∧ previous.scheme = "https" then h
  else h.insert .referer (Bytes.ofText (withoutUser { previous with fragment := none }).text)

structure Delivery where
  sent : List OutboundRequest := []
  result : Except WriteError Unit

def accept (answer : Response) : Except WriteError Unit :=
  match answer.body.read? with
  | some _ => .ok ()
  | none => .error .unreadableAnswer

/-- Sends a parcel to a URL and follows at most `hops` answers to other places. -/
def deliver (network : Network) :
    (hops : Nat) → (sent : List OutboundRequest) → Parcel → Headers → Url → Delivery
  | hops, sent, parcel, headers, url =>
    match Uri.parse url.text with
    | .error _ => ⟨sent, .error (.invalidTarget url)⟩
    | .ok target =>
      let sent := sent ++ [parcel.addressed target headers]
      match network sent with
      | .error failure => ⟨sent, .error (.send url failure)⟩
      | .ok answer =>
        match location? url answer with
        | none => ⟨sent, accept answer⟩
        | some next =>
          match hops with
          | 0 => ⟨sent, .error (.tooManyRedirects url)⟩
          | hops + 1 =>
            if next.scheme ≠ "http" ∧ next.scheme ≠ "https" then
              ⟨sent, .error (.badRedirect next)⟩
            else
              let parcel := parcel.after answer.status
              deliver network hops sent parcel (nextHeaders parcel.headers url next) next

def maxRedirects : Nat := 10

def write (w : RemoteWrite) (network : Network) (tenant : String) (series : List TimeSeries) :
    Delivery :=
  let message := Protobuf.writeRequest series
  match Snappy.encode? message with
  | none => ⟨[], .error (.tooLarge message.length)⟩
  | some body =>
    if !Headers.isValue (Bytes.ofText tenant) then ⟨[], .error .invalidTenant⟩
    else
      let (url, credentials) := address w.url
      let headers := writeHeaders tenant credentials
      deliver network maxRedirects [] ⟨"POST", headers, ⟨body, true⟩⟩ headers url

end RemoteWrite
end TenantGate
