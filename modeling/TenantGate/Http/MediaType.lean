import TenantGate.Http.Header
import TenantGate.Text.Blank
/-!
# Media types

A media type is two names around a slash, followed by parameters.  Only the two names matter here,
but a type is a type only if its parameters are well formed.
-/

namespace TenantGate
namespace MediaType

/-- What the parameters of a type may look like from some point on. -/
inductive Stage
  | name (started : Bool)
  | value (started : Bool)
  | quoted (started : Bool)
  | afterQuote
  deriving DecidableEq, Repr

/-- Whether the text after the first semicolon is a list of parameters.  Spaces may stand before a
name and after a quoted value, and a list may end with a semicolon. -/
def parametersFrom : Stage → List Char → Bool
  | .name started, [] => !started
  | .value _, [] => true
  | .quoted _, [] => false
  | .afterQuote, [] => true
  | .name started, c :: s =>
    if c = ' ' ∧ !started then parametersFrom (.name false) s
    else if Headers.isNameChar c then parametersFrom (.name true) s
    else if c = '=' ∧ started then parametersFrom (.value false) s
    else false
  | .value started, c :: s =>
    if c = '"' ∧ !started then parametersFrom (.quoted false) s
    else if Headers.isNameChar c then parametersFrom (.value true) s
    else if c = ';' ∧ started then parametersFrom (.name false) s
    else false
  | .quoted started, c :: s =>
    if c = '"' ∧ started then parametersFrom .afterQuote s
    else if 31 < c.toNat ∧ c.toNat ≠ 127 then parametersFrom (.quoted true) s
    else false
  | .afterQuote, c :: s =>
    if c = ';' then parametersFrom (.name false) s
    else if c = ' ' then parametersFrom .afterQuote s
    else false

/-- The two names and the slash between them, in lower case, of a well-formed type.  The second
name may be empty when no parameters follow. -/
def essence? (s : String) : Option String :=
  let top := s.toList.takeWhile Headers.isNameChar
  match s.toList.dropWhile Headers.isNameChar with
  | '/' :: r =>
    let sub := r.takeWhile Headers.isNameChar
    let found := (String.ofList (top ++ '/' :: sub)).toLower
    if top.isEmpty then none
    else match r.dropWhile Headers.isNameChar with
      | [] => some found
      | ';' :: parameters =>
        if !sub.isEmpty && parametersFrom (.name false) parameters then some found else none
      | _ => none
  | _ => none

/-- Whether a comma-separated part is the wanted type while every part before it is a type. -/
def listed (wanted : String) : List String → Bool
  | [] => false
  | part :: parts =>
    match essence? (Text.trim part) with
    | none => false
    | some e => e == wanted || listed wanted parts

end MediaType
end TenantGate
