/-!
# Dot segments

A segment `.` or `..` of a path, each dot plain or percent-encoded, does not name a place: it moves
to another one.  A path with such a segment is not forwarded, for it would be resolved on the way.
-/

namespace TenantGate
namespace DotSegment

/-- Replaces every encoded dot of a lower-case text, from left to right. -/
def decodeDots : List Char → List Char
  | '%' :: '2' :: 'e' :: s => '.' :: decodeDots s
  | c :: s => c :: decodeDots s
  | [] => []

def isDotSegment (segment : List Char) : Bool :=
  let decoded := decodeDots (segment.map Char.toLower)
  decoded == ['.'] || decoded == ['.', '.']

def hasDotSegment (path : String) : Bool := (path.toList.splitOn '/').any isDotSegment

/-- The written forms of a dot segment, in lower case. -/
def forms : List String := [".", "%2e", "..", ".%2e", "%2e.", "%2e%2e"]

end DotSegment
end TenantGate
