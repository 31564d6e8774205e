import TenantGate.Bytes
/-!
# The characters of a YAML stream

Each character stands at a place: so many characters, lines and columns come before it.  A line
ends in one character, however the end is written, and a stream with a control character cannot be
read.
-/

namespace TenantGate
namespace Yaml

structure Placed where
  char : Char
  /-- How many characters come before. -/
  offset : Nat
  line : Nat
  column : Nat
  deriving DecidableEq, Repr

def isBreak (c : Char) : Bool := c == '\n' || c == '\u2028' || c == '\u2029'

def isBlank (c : Char) : Bool := c == ' ' || c == '\t'

def isGap (c : Char) : Bool := isBlank c || isBreak c

def isWordChar (c : Char) : Bool := c.isAlphanum || c == '-' || c == '_'

def mayAppear (c : Char) : Bool :=
  let n := c.toNat
  n == 0x09 || n == 0x0a || n == 0x0d || (0x20 ≤ n && n ≤ 0x7e) || n == 0x85
    || (0xa0 ≤ n && n ≤ 0xfffd) || 0x10000 ≤ n

/-- Each end of a line as a line feed, and beside each character how many are written for it. -/
def joinBreaks : List Char → List (Char × Nat)
  | [] => []
  | '\r' :: '\n' :: s => ('\n', 2) :: joinBreaks s
  | c :: s => (if c == '\r' || c == '\u0085' then '\n' else c, 1) :: joinBreaks s

def place (offset line column : Nat) : List (Char × Nat) → List Placed
  | [] => []
  | (c, width) :: s =>
    ⟨c, offset, line, column⟩ ::
      (if isBreak c then place (offset + width) (line + 1) 0 s
        else place (offset + width) line (column + 1) s)

def placed? (b : Bytes) : Option (List Placed) :=
  match Bytes.text? b with
  | some s => if s.toList.all mayAppear then some (place 0 0 0 (joinBreaks s.toList)) else none
  | none => none

def startsWith (c : Char) : List Placed → Bool
  | [] => false
  | p :: _ => p.char == c

/-- Whether a word cannot go on here. -/
def atGap : List Placed → Bool
  | [] => true
  | p :: _ => isGap p.char

def atLineEnd : List Placed → Bool
  | [] => true
  | p :: _ => isBreak p.char

/-- Three times the same mark at the start of a line, and no word goes on. -/
def atMarker (mark : Char) : List Placed → Bool
  | a :: b :: c :: s =>
    a.column == 0 && a.char == mark && b.char == mark && c.char == mark && atGap s
  | _ => false

def atDocumentMarker (s : List Placed) : Bool := atMarker '-' s || atMarker '.' s

def word (s : List Placed) : String × List Placed :=
  (String.ofList ((s.takeWhile (isWordChar ·.char)).map (·.char)), s.dropWhile (isWordChar ·.char))

/-- What is left of the line is blanks and a comment; the next line follows. -/
def nextLine? (s : List Placed) : Option (List Placed) :=
  let s := s.dropWhile (isBlank ·.char)
  let s := if startsWith '#' s then s.dropWhile (!isBreak ·.char) else s
  if atLineEnd s then some (s.drop 1) else none

end Yaml
end TenantGate
