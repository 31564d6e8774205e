import TenantGate.Yaml.Place
/-!
# Scalars

A scalar is written in quotes, plainly or as a block of lines.  Where its text goes over the end of
a line, the lines are folded: one end of a line is a space, and further ones stay.
-/

namespace TenantGate
namespace Yaml

/-- The blanks or line ends between two words of a scalar. -/
inductive Fold
  | blanks (chars : List Char)
  /-- The first end of a line, which may be escaped, and the later ones. -/
  | lines (first : Option Char) (later : List Char)
  deriving DecidableEq, Repr

namespace Fold

def empty : Fold := .blanks []

/-- Blanks at either end of a line are dropped. -/
def add (c : Char) : Fold → Fold
  | .blanks cs => if isBreak c then .lines (some c) [] else .blanks (cs ++ [c])
  | .lines first later => if isBreak c then .lines first (later ++ [c]) else .lines first later

def chars : Fold → List Char
  | .blanks cs => cs
  | .lines none later => later
  | .lines (some '\n') [] => [' ']
  | .lines (some '\n') later => later
  | .lines (some c) later => c :: later

def hasLines : Fold → Bool
  | .blanks _ => false
  | .lines _ _ => true

def isEmpty : Fold → Bool
  | .blanks [] => true
  | _ => false

end Fold

abbrev Reading := List Char × List Placed

def prepend (cs : List Char) (r : Reading) : Reading := (cs ++ r.1, r.2)

/-- A scalar in single quotes, after the first of them.  A quote inside is written twice. -/
def singleQuoted (fold : Fold) : List Placed → Option Reading
  | [] => none
  | p :: s =>
    if isGap p.char then singleQuoted (fold.add p.char) s
    else if atDocumentMarker (p :: s) then none
    else if p.char = '\'' then
      match s with
      | q :: t =>
        if q.char = '\'' then (singleQuoted .empty t).map (prepend (fold.chars ++ ['\'']))
        else some (fold.chars, q :: t)
      | [] => some (fold.chars, [])
    else (singleQuoted .empty s).map (prepend (fold.chars ++ [p.char]))

def namedEscape? : Char → Option Char
  | '0' => some '\x00'
  | 'a' => some '\x07'
  | 'b' => some '\x08'
  | 't' => some '\t'
  | '\t' => some '\t'
  | 'n' => some '\n'
  | 'v' => some '\x0b'
  | 'f' => some '\x0c'
  | 'r' => some '\r'
  | 'e' => some '\x1b'
  | ' ' => some ' '
  | '"' => some '"'
  | '/' => some '/'
  | '\\' => some '\\'
  | 'N' => some '\u0085'
  | '_' => some '\u00a0'
  | 'L' => some '\u2028'
  | 'P' => some '\u2029'
  | _ => none

def digitsOfEscape? : Char → Option Nat
  | 'x' => some 2
  | 'u' => some 4
  | 'U' => some 8
  | _ => none

def hexNumber? (n : Nat) : (count : Nat) → List Placed → Option Nat
  | 0, _ => some n
  | _ + 1, [] => none
  | count + 1, p :: s =>
    if p.char.toNat < 0x80 then
      match Bytes.hexValue? (Bytes.ofChar p.char) with
      | some d => hexNumber? (n * 16 + d) count s
      | none => none
    else none

def escape? (letter : Char) (s : List Placed) : Option (Char × Nat) :=
  match namedEscape? letter with
  | some c => some (c, 0)
  | none => do
    let count ← digitsOfEscape? letter
    let n ← hexNumber? 0 count s
    if n.isValidChar then some (Char.ofNat n, count) else none

/-- A scalar in double quotes, after the first of them.  A backslash starts an escape; at the end
of a line it takes the end away. -/
def doubleQuoted (fold : Fold) (s : List Placed) : Option Reading :=
  match s with
  | [] => none
  | p :: s =>
    if isGap p.char then doubleQuoted (fold.add p.char) s
    else if atDocumentMarker (p :: s) then none
    else if p.char = '"' then some (fold.chars, s)
    else if p.char = '\\' then
      match s with
      | [] => none
      | q :: t =>
        if isBreak q.char then (doubleQuoted (.lines none []) t).map (prepend fold.chars)
        else
          match escape? q.char t with
          | some (c, count) =>
            (doubleQuoted .empty (t.drop count)).map (prepend (fold.chars ++ [c]))
          | none => none
    else (doubleQuoted .empty s).map (prepend (fold.chars ++ [p.char]))
termination_by s.length
decreasing_by all_goals (simp only [List.length_cons, List.length_drop]; omega)

/-- The characters that end a plain scalar inside brackets. -/
def isFlowMark (c : Char) : Bool := [',', '[', ']', '\x7b', '\x7d'].contains c

/-- A colon that a bracket or a comma follows at once. -/
def hasStrayColon : List Placed → Bool
  | p :: q :: _ => p.char == ':' && (isFlowMark q.char || q.char == '?')
  | _ => false

def endsPlain (inBrackets : Bool) : List Placed → Bool
  | [] => true
  | p :: s => (p.char == ':' && atGap s) || (inBrackets && isFlowMark p.char)

/-- A plain scalar whose further lines start at column `indent` at least.  The last component says
whether a line has ended after the last word. -/
def plain (inBrackets : Bool) (indent : Nat) (fold : Fold) :
    List Placed → Option (List Char × List Placed × Bool)
  | [] => some ([], [], fold.hasLines)
  | p :: s =>
    if isGap p.char then
      if fold.hasLines && p.column < indent && p.char == '\t' then none
      else plain inBrackets indent (fold.add p.char) s
    else
      let between := !fold.isEmpty
      let ended := some ([], p :: s, fold.hasLines)
      if between && ((!inBrackets && p.column < indent) || atDocumentMarker (p :: s)
          || p.char == '#') then ended
      else if inBrackets && hasStrayColon (p :: s) then none
      else if endsPlain inBrackets (p :: s) then ended
      else (plain inBrackets indent .empty s).map fun r => (fold.chars ++ p.char :: r.1, r.2)

inductive Chomping
  | strip
  | clip
  | keep
  deriving DecidableEq, Repr

/-- The header of a block: what to do at its end, and how far it is indented, if that is said. -/
def blockHeader (s : List Placed) : Option (Chomping × Option Nat × List Placed) :=
  let (first, s) := chomping s
  match s with
  | p :: t =>
    if p.char.isDigit then
      if p.char = '0' then none
      else
        let increment := some (p.char.toNat - '0'.toNat)
        match first with
        | some c => finish c increment t
        | none =>
          let (second, t) := chomping t
          finish (second.getD .clip) increment t
    else finish (first.getD .clip) none (p :: t)
  | [] => finish (first.getD .clip) none []
where
  chomping : List Placed → Option Chomping × List Placed
    | p :: s =>
      if p.char = '+' then (some .keep, s)
      else if p.char = '-' then (some .strip, s)
      else (none, p :: s)
    | [] => (none, [])
  finish (c : Chomping) (increment : Option Nat) (s : List Placed) :=
    (nextLine? s).map fun s => (c, increment, s)

/-- The line ends before the next line with text, and the widest column that blanks lead to.  No
tab may stand where the indentation is. -/
def emptyLines (indent : Option Nat) (widest : Nat) :
    List Placed → Option (List Char × Nat × List Placed)
  | [] => some ([], widest, [])
  | p :: s =>
    let outside := indent.all (p.column < ·)
    if outside && p.char == ' ' then emptyLines indent (max widest (p.column + 1)) s
    else if outside && p.char == '\t' then none
    else if isBreak p.char then
      (emptyLines indent widest s).map fun r => (p.char :: r.1, r.2)
    else some ([], widest, p :: s)

theorem length_emptyLines {indent : Option Nat} {widest : Nat} {s : List Placed}
    {r : List Char × Nat × List Placed} (h : emptyLines indent widest s = some r) :
    r.2.2.length ≤ s.length := by
  induction s generalizing widest r with
  | nil =>
    simp only [emptyLines, Option.some.injEq] at h
    simp [← h]
  | cons p s ih =>
    simp only [emptyLines] at h
    split at h
    · exact Nat.le_succ_of_le (ih h)
    split at h
    · simp at h
    split at h
    · obtain ⟨q, hq, rfl⟩ := Option.map_eq_some_iff.1 h
      have := ih hq
      exact Nat.le_succ_of_le this
    · simp only [Option.some.injEq] at h
      simp [← h]

/-- The lines of a block.  `last` is the end of the line before, if there is one, and `empty` the
ends of the empty lines after it. -/
def blockLines (folded : Bool) (chomping : Chomping) (indent : Nat) (last empty : List Char)
    (afterBlank : Bool) (s : List Placed) : Option Reading :=
  match s with
  | [] => some (tail last empty, [])
  | p :: s =>
    if p.column = indent then
      let atBlank := isBlank p.char
      let joined :=
        if folded && last == ['\n'] && !afterBlank && !atBlank then
          if empty.isEmpty then [' '] else empty
        else last ++ empty
      let text := p.char :: (s.takeWhile (!isBreak ·.char)).map (·.char)
      let rest := s.dropWhile (!isBreak ·.char)
      match h : emptyLines (some indent) 0 (rest.drop 1) with
      | none => none
      | some r =>
        have := length_emptyLines h
        have : rest.length ≤ s.length := (List.dropWhile_suffix _).length_le
        (blockLines folded chomping indent ((rest.take 1).map (·.char)) r.1 atBlank r.2.2).map
          (prepend (joined ++ text))
    else some (tail last empty, p :: s)
termination_by s.length
decreasing_by (simp only [List.length_drop, List.length_cons] at *; omega)
where
  tail (last empty : List Char) : List Char :=
    match chomping with
    | .strip => []
    | .clip => last
    | .keep => last ++ empty

/-- A block of lines after its first mark.  Its lines are indented by more than `outer` columns,
that is by as much as the header says or else as the first line with text. -/
def block (folded : Bool) (outer : Option Nat) (s : List Placed) : Option Reading := do
  let (chomping, increment, s) ← blockHeader s
  let given := increment.map (outer.getD 0 + ·)
  let (empty, widest, s) ← emptyLines given 0 s
  let indent := given.getD (max widest (outer.elim 1 (· + 1)))
  blockLines folded chomping indent [] empty false s

end Yaml
end TenantGate
