import TenantGate.Text.Printable
/-!
# Quoted text

A text between double quotes.  Quotes, backslashes and the common controls have short escapes;
another character that cannot be seen on its own is written by its number in braces.
-/

namespace TenantGate
namespace Text

def hexNumber (n : Nat) : String := String.ofList (Nat.toDigits 16 n)

def escapeChar (c : Char) : String :=
  if c = '"' then "\\\""
  else if c = '\\' then "\\\\"
  else if c = '\n' then "\\n"
  else if c = '\r' then "\\r"
  else if c = '\t' then "\\t"
  else if c.toNat = 0 then "\\0"
  else if 0x20 ≤ c.toNat ∧ c.toNat < 0x7f then c.toString
  else if isHidden c || isExtending c then "\\u\x7b" ++ hexNumber c.toNat ++ "\x7d"
  else c.toString

def quoted (s : String) : String := "\"" ++ String.join (s.toList.map escapeChar) ++ "\""

end Text
end TenantGate
