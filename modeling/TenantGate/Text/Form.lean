import TenantGate.Text.Percent
import TenantGate.Utf8
/-!
# Form encoding

A list of names and values in one text: pairs are separated by ampersands, a name ends at the
first equals sign, a plus stands for a space, and other bytes may be percent-encoded.  Pairs that
are empty are skipped, and bytes that are not UTF-8 are replaced.
-/

namespace TenantGate
namespace Form

def decode (s : List Char) : String :=
  Utf8.decodeLossy (Percent.decode (s.map fun c => if c = '+' then ' ' else c))

def splitPair (s : List Char) : List Char × List Char :=
  (s.takeWhile (· != '='), (s.dropWhile (· != '=')).drop 1)

def decodePair (s : List Char) : String × String :=
  let (name, value) := splitPair s
  (decode name, decode value)

def parse (query : String) : List (String × String) :=
  ((query.toList.splitOn '&').filter fun p => !p.isEmpty).map decodePair

def lookup? (query : String) (name : String) : Option String := (parse query).lookup name

end Form
end TenantGate
