import TenantGate.Http.Header
import TenantGate.Text.Blank
/-!
# Fields of a single connection

Some fields say something about the connection a message came on and not about the message.  They
are dropped when the message is passed on, together with the fields that the Connection field
names.  A protocol switch is the one thing that is passed on: it is read before the fields are
dropped and restored afterwards.
-/

namespace TenantGate
namespace HopByHop

/-- The comma-separated parts of the Connection values, in lower case. -/
def tokens (h : Headers) : List String :=
  (((h.values "connection").filterMap Headers.visible?).flatMap fun v =>
    (v.toList.splitOn ',').map fun part => (Text.trim (String.ofList part)).toLower).filter
      fun t => !t.isEmpty

def upgrade? (h : Headers) : Option Bytes :=
  if "upgrade" ∈ tokens h then h.get? "upgrade" else none

def standardNames : List String := [
  "connection", "transfer-encoding", "te", "trailer", "upgrade", "proxy-authorization",
  "proxy-authenticate", "keep-alive", "proxy-connection"]

def droppedNames (h : Headers) : List String :=
  standardNames ++ (tokens h).filterMap Headers.name?

def filter (h : Headers) : Headers := h.removeAll (droppedNames h)

def setUpgrade (h : Headers) (protocol : Bytes) : Headers :=
  (h.insert .connection (Bytes.ofText "upgrade")).insert .upgrade protocol

theorem values_filter (h : Headers) (name : String) :
    (filter h).values name = if name ∈ droppedNames h then [] else h.values name := by
  simp [filter]

@[simp] theorem values_setUpgrade (h : Headers) (protocol : Bytes) (name : String) :
    (setUpgrade h protocol).values name =
      if "upgrade" = name then [protocol]
      else if "connection" = name then [Bytes.ofText "upgrade"] else h.values name := by
  simp [setUpgrade]

end HopByHop
end TenantGate
