/-!
# Listening addresses

An address is a host and a number; without a host, all interfaces are meant.
-/

namespace TenantGate
namespace Listen

def normalize (address : String) : String :=
  if address.startsWith ":" then "0.0.0.0" ++ address else address

structure Address where
  host : String
  portNumber : Nat
  deriving DecidableEq, Repr

inductive AddressError
  | noPortNumber
  | invalidPortNumber
  /-- The address has the right form but cannot be used. -/
  | unavailable (reason : String)
  deriving DecidableEq, Repr

def AddressError.message : AddressError → String
  | .noPortNumber => "invalid socket address"
  | .invalidPortNumber => "invalid port value"
  | .unavailable reason => reason

def portNumber? (s : List Char) : Option Nat :=
  let digits := match s with
    | '+' :: r => r
    | r => r
  if digits.isEmpty || !digits.all Char.isDigit then none
  else
    let n := digits.foldl (fun n c => n * 10 + (c.toNat - '0'.toNat)) 0
    if n ≤ 0xffff then some n else none

/-- The number stands after the last colon. -/
def Address.ofText (text : String) : Except AddressError Address :=
  let s := (normalize text).toList.reverse
  match s.dropWhile (· != ':') with
  | [] => .error .noPortNumber
  | _ :: host =>
    match portNumber? (s.takeWhile (· != ':')).reverse with
    | none => .error .invalidPortNumber
    | some n => .ok ⟨String.ofList host.reverse, n⟩

end Listen
end TenantGate
