import TenantGate.Http.MediaType
/-!
# The type of a submitted document

A submission is JSON.  Its type is looked for in the first Content-Type value, which may list
several types; a part that is no type ends the search.
-/

namespace TenantGate

inductive ContentTypeError
  | missing
  | unexpected
  deriving DecidableEq, Repr

namespace ContentType

def json : String := "application/json"

def parts (value : String) : List String := (value.toList.splitOn ',').map String.ofList

def check (headers : Headers) : Except ContentTypeError Unit :=
  match headers.get? "content-type" with
  | none => .error .missing
  | some [] => .error .missing
  | some value =>
    match Headers.visible? value with
    | none => .error .unexpected
    | some s => if MediaType.listed json (parts s) then .ok () else .error .unexpected

end ContentType
end TenantGate
