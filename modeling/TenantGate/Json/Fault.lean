import TenantGate.Binary64
import TenantGate.Bytes
import TenantGate.Text.Quoted
/-!
# What can be wrong with a JSON document

A fault is a cause and a place.  The place is the number of bytes that were left to read, which a
reader knows without the whole document; the line and the column are worked out at the end.  A
reader that is left alone with the fault goes on with what was not read.
-/

namespace TenantGate
namespace Json

/-- A number as it was written: without a sign, negative, or with a fraction, an exponent or more
than 64 bits. -/
inductive Number
  | unsigned (n : Nat)
  | negative (n : Nat)
  | double (x : Binary64)
  deriving DecidableEq, Repr

/-- The value that stands where another kind was wanted. -/
inductive Found
  | null
  | boolean (b : Bool)
  | number (n : Number)
  | text (s : String)
  | list
  | object
  deriving DecidableEq, Repr

inductive Cause
  | endInValue
  | endInText
  | endInList
  | endInObject
  | expectedColon
  | expectedCommaOrListEnd
  | expectedCommaOrObjectEnd
  | expectedWord
  | expectedValue
  | invalidEscape
  | invalidNumber
  | numberOutOfRange
  | invalidCodePoint
  | controlCharacter
  | keyNotText
  | loneSurrogate
  | trailingComma
  | trailingCharacters
  | endOfEscape
  | nestingTooDeep
  | wrongKind (found : Found) (wanted : String)
  | wrongValue (found : Found) (wanted : String)
  | wrongLength (found : Nat) (wanted : String)
  | duplicateMember (name : String)
  | missingMember (name : String)
  | unknownName (found : String) (wanted : List String)
  | other (text : String)
  deriving DecidableEq, Repr

structure Fault where
  cause : Cause
  /-- How many bytes follow the place that the fault is told of. -/
  left : Nat
  unread : Bytes
  deriving DecidableEq, Repr

def faultAt {α : Type} (cause : Cause) (s : Bytes) : Except Fault α :=
  .error ⟨cause, s.length, s⟩

/-- A fault that stands after the next byte, if there is one, which was only looked at. -/
def faultOn {α : Type} (cause : Cause) (s : Bytes) : Except Fault α :=
  .error ⟨cause, s.length - 1, s⟩

def Number.describe : Number → String
  | .unsigned n => "integer \x60" ++ toString n ++ "\x60"
  | .negative n => "integer \x60-" ++ toString n ++ "\x60"
  | .double x => "floating point \x60" ++ x.pointedText ++ "\x60"

def Found.describe : Found → String
  | .null => "null"
  | .boolean true => "boolean \x60true\x60"
  | .boolean false => "boolean \x60false\x60"
  | .number n => n.describe
  | .text s => "string " ++ Text.quoted s
  | .list => "sequence"
  | .object => "map"

/-- How a choice of names is listed: one name, two names, or more. -/
def oneOf : List String → String
  | [] => "there are no variants"
  | [a] => "expected \x60" ++ a ++ "\x60"
  | [a, b] => "expected \x60" ++ a ++ "\x60 or \x60" ++ b ++ "\x60"
  | l => "expected one of " ++ ", ".intercalate (l.map fun a => "\x60" ++ a ++ "\x60")

def Cause.message : Cause → String
  | .endInValue => "EOF while parsing a value"
  | .endInText => "EOF while parsing a string"
  | .endInList => "EOF while parsing a list"
  | .endInObject => "EOF while parsing an object"
  | .expectedColon => "expected \x60:\x60"
  | .expectedCommaOrListEnd => "expected \x60,\x60 or \x60]\x60"
  | .expectedCommaOrObjectEnd => "expected \x60,\x60 or \x60\x7d\x60"
  | .expectedWord => "expected ident"
  | .expectedValue => "expected value"
  | .invalidEscape => "invalid escape"
  | .invalidNumber => "invalid number"
  | .numberOutOfRange => "number out of range"
  | .invalidCodePoint => "invalid unicode code point"
  | .controlCharacter => "control character (\\u0000-\\u001F) found while parsing a string"
  | .keyNotText => "key must be a string"
  | .loneSurrogate => "lone leading surrogate in hex escape"
  | .trailingComma => "trailing comma"
  | .trailingCharacters => "trailing characters"
  | .endOfEscape => "unexpected end of hex escape"
  | .nestingTooDeep => "recursion limit exceeded"
  | .wrongKind found wanted => "invalid type: " ++ found.describe ++ ", expected " ++ wanted
  | .wrongValue found wanted => "invalid value: " ++ found.describe ++ ", expected " ++ wanted
  | .wrongLength n wanted => "invalid length " ++ toString n ++ ", expected " ++ wanted
  | .duplicateMember name => "duplicate field \x60" ++ name ++ "\x60"
  | .missingMember name => "missing field \x60" ++ name ++ "\x60"
  | .unknownName found wanted => "unknown variant \x60" ++ found ++ "\x60, " ++ oneOf wanted
  | .other text => text

/-- Line and column after the bytes that were read: lines are counted from one, and the column is
the number of bytes since the last line feed. -/
def position (read : Bytes) : Nat × Nat :=
  (read.count 10 + 1, (read.reverse.takeWhile (· != 10)).length)

def Fault.message (doc : Bytes) (f : Fault) : String :=
  let (line, column) := position (doc.take (doc.length - f.left))
  f.cause.message ++ " at line " ++ toString line ++ " column " ++ toString column

end Json
end TenantGate
