import TenantGate.Text.Base64
/-!
# Documents between boundary lines

A document is written as Base64 in lines of sixty-four symbols, of which only the last one may be
shorter, between two boundary lines that name its kind.  Text may stand before the first boundary,
which then starts a line; nothing may follow the second one.
-/

namespace TenantGate
namespace Pem

def beginMark : Bytes := Bytes.ofText "-----BEGIN "

def endMark : Bytes := Bytes.ofText "-----END "

def dashes : Bytes := Bytes.ofText "-----"

def lineFeed : UInt8 := 0x0a

def carriageReturn : UInt8 := 0x0d

def afterPreamble? (s : Bytes) : Option Bytes :=
  match beginMark.isPrefixOf? s with
  | some rest => some rest
  | none => go s
where
  go : Bytes → Option Bytes
    | [] => none
    | b :: s =>
      if b = 0 then none
      else match beginMark.isPrefixOf? s with
        | some rest => if b = lineFeed then some rest else none
        | none => go s

def afterLineEnd? : Bytes → Option Bytes
  | b :: s =>
    if b = lineFeed then some s
    else if b = carriageReturn then
      match s with
      | c :: r => some (if c = lineFeed then r else c :: r)
      | [] => some []
    else none
  | [] => none

def beforeLineEnd? (s : Bytes) : Option Bytes :=
  match s.reverse with
  | b :: r =>
    if b = lineFeed then
      some (if r.head? = some carriageReturn then r.tail.reverse else r.reverse)
    else if b = carriageReturn then some r.reverse
    else none
  | [] => none

def lineWidth : Nat := 64

theorem length_of_drop {s rest : Bytes} {n : Nat} {b : UInt8} (h : s.drop n = b :: rest) :
    rest.length < s.length := by
  have := congrArg List.length h
  simp only [List.length_drop, List.length_cons] at this
  omega

/-- The symbols of lines of full width and a shorter last one. -/
def unwrap? (s : Bytes) : Option Bytes :=
  if s.length ≤ lineWidth then some s
  else match h : s.drop lineWidth with
    | 0x0a :: rest =>
      have := length_of_drop h
      (unwrap? rest).map (s.take lineWidth ++ ·)
    | 0x0d :: 0x0a :: rest =>
      have : rest.length < s.length := Nat.lt_of_succ_lt (length_of_drop h)
      (unwrap? rest).map (s.take lineWidth ++ ·)
    | _ => none
termination_by s.length

def decode? (kind : String) (text : Bytes) : Option Bytes := do
  let s ← afterPreamble? text
  let body ← (Bytes.ofText kind ++ dashes).isPrefixOf? s
  let body ← afterLineEnd? body
  let body := (beforeLineEnd? body).getD body
  let close := endMark ++ Bytes.ofText kind ++ dashes
  let body ← (close.reverse.isPrefixOf? body.reverse).map List.reverse
  let body ← beforeLineEnd? body
  if body = [] then none
  else Base64.decodePadded? .standard (← unwrap? body)

end Pem
end TenantGate
