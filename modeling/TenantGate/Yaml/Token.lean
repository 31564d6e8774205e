import TenantGate.Yaml.Scalar
/-!
# Tokens

What is said by indentation and by colons is said by tokens of its own.  Whether a word is the key
of a mapping is known only at the colon after it, so the place of a possible key is kept until then
and its tokens are put in there.
-/

namespace TenantGate
namespace Yaml

inductive Token
  | version (major minor : Nat)
  | tagHandle (handle : String) (start : Bytes)
  | documentStart
  | documentEnd
  | blockSequence
  | blockMapping
  | blockEnd
  | flowSequence
  | flowSequenceEnd
  | flowMapping
  | flowMappingEnd
  | blockEntry
  | flowEntry
  | key
  | value
  | alias (name : String)
  | anchor (name : String)
  | tag (handle : String) (suffix : Bytes)
  | scalar (isPlain : Bool) (text : String)
  deriving DecidableEq, Repr

def isTagChar (verbatim : Bool) (c : Char) : Bool :=
  isWordChar c || ";/?:@&=+$.!~*'()".toList.contains c || (verbatim && ",[]".toList.contains c)

def owedBytes? (first : Nat) : Option Nat :=
  if first < 0x80 then some 0
  else if first / 0x20 = 6 then some 1
  else if first / 0x10 = 14 then some 2
  else if first / 0x08 = 30 then some 3
  else none

/-- The text of a tag.  Percent-encoded bytes are decoded; `owed` of them are still to come. -/
def tagText (verbatim : Bool) (owed : Nat) (s : List Placed) : Option (Bytes × List Placed) :=
  match s with
  | [] => if owed = 0 then some ([], []) else none
  | p :: s =>
    if p.char = '%' then do
      let byte ← hexNumber? 0 2 s
      let owed ← if owed = 0 then owedBytes? byte
        else if byte / 0x40 = 2 then some (owed - 1) else none
      let (b, s) ← tagText verbatim owed (s.drop 2)
      return (UInt8.ofNat byte :: b, s)
    else if owed ≠ 0 then none
    else if isTagChar verbatim p.char then do
      let (b, s) ← tagText verbatim 0 s
      return (Bytes.ofChar p.char :: b, s)
    else some ([], p :: s)
termination_by s.length
decreasing_by all_goals (simp only [List.length_drop, List.length_cons]; omega)

def tagHandle (s : List Placed) : String × List Placed :=
  let (name, rest) := word (s.drop 1)
  if startsWith '!' rest then ("!" ++ name ++ "!", rest.drop 1) else ("!" ++ name, rest)

/-- A tag that starts with an exclamation mark.  A tag without a name has no handle. -/
def tag? (inBrackets : Bool) (s : List Placed) : Option (Token × List Placed) := do
  let (handle, suffix, s) ←
    if startsWith '<' (s.drop 1) then do
      let (text, s) ← tagText true 0 (s.drop 2)
      if text.isEmpty || !startsWith '>' s then none else some ("", text, s.drop 1)
    else
      let (handle, rest) := tagHandle s
      if 1 < handle.length && handle.endsWith "!" then do
        let (text, rest) ← tagText false 0 rest
        if text.isEmpty then none else some (handle, text, rest)
      else do
        let (text, rest) ← tagText false 0 rest
        let text := Bytes.ofText (handle.drop 1).toString ++ text
        some (if text.isEmpty then ("", Bytes.ofText "!", rest) else ("!", text, rest))
  if atGap s || (inBrackets && startsWith ',' s) then some (.tag handle suffix, s) else none

def versionNumber? (s : List Placed) : Option (Nat × List Placed) :=
  let digits := (s.takeWhile (·.char.isDigit)).map fun p => p.char.toNat - '0'.toNat
  if digits.isEmpty || 9 < digits.length then none
  else some (digits.foldl (fun n d => n * 10 + d) 0, s.dropWhile (·.char.isDigit))

def directive? (s : List Placed) : Option (Token × List Placed) := do
  let (name, s) := word s
  if !atGap s then none
  else
    let s := s.dropWhile (isBlank ·.char)
    match name with
    | "YAML" =>
      let (major, s) ← versionNumber? s
      if !startsWith '.' s then none
      else
        let (minor, s) ← versionNumber? (s.drop 1)
        return (.version major minor, ← nextLine? s)
    | "TAG" =>
      let (handle, s) := if startsWith '!' s then tagHandle s else ("", s)
      if handle.isEmpty || (1 < handle.length && !handle.endsWith "!") || atLineEnd s || !atGap s
      then none
      else
        let (start, s) ← tagText true 0 (s.dropWhile (isBlank ·.char))
        if start.isEmpty || !atGap s then none
        else return (.tagHandle handle start, ← nextLine? s)
    | _ => none

/-- A place where the key of a mapping may have started. -/
structure Candidate where
  /-- How many tokens come before it. -/
  index : Nat
  /-- Whether the indentation leaves no other way to read what starts there. -/
  required : Bool
  place : Placed
  deriving Repr

structure Scanner where
  tokens : Array Token := #[]
  /-- The columns of the open blocks, the innermost first. -/
  blocks : List Nat := []
  /-- Whether a key may start here. -/
  keyAllowed : Bool := true
  candidate : Option Candidate := none
  /-- The candidates outside of the open brackets, the innermost first. -/
  outer : List (Option Candidate) := []

namespace Scanner

def inBrackets (sc : Scanner) : Bool := !sc.outer.isEmpty

def push (sc : Scanner) (t : Token) : Scanner := { sc with tokens := sc.tokens.push t }

/-- Puts a token before the one with the given index, or after all of them. -/
def insert (sc : Scanner) (index : Option Nat) (t : Token) : Scanner :=
  { sc with tokens := sc.tokens.insertIdxIfInBounds (index.getD sc.tokens.size) t }

def openBlock (sc : Scanner) (column : Nat) (index : Option Nat) (t : Token) : Scanner :=
  if !sc.inBrackets && sc.blocks.head?.all (· < column) then
    { sc.insert index t with blocks := column :: sc.blocks }
  else sc

/-- Closes the blocks that are indented by more than a line at a column, or all of them. -/
def closeBlocks (sc : Scanner) (column : Option Nat) : Scanner :=
  if sc.inBrackets then sc
  else
    let closed := sc.blocks.takeWhile fun b => column.all (· < b)
    { sc with
      tokens := sc.tokens ++ Array.replicate closed.length .blockEnd
      blocks := sc.blocks.drop closed.length }

def forget? (candidate : Option Candidate) : Option (Option Candidate) :=
  if candidate.any (·.required) then none else some none

def dropCandidate (sc : Scanner) : Option Scanner := do
  return { sc with candidate := ← forget? sc.candidate }

def saveCandidate (sc : Scanner) (p : Placed) : Option Scanner := do
  if !sc.keyAllowed then return sc
  let sc ← sc.dropCandidate
  let required := !sc.inBrackets && sc.blocks.head? == some p.column
  return { sc with candidate := some ⟨sc.tokens.size, required, p⟩ }

/-- A key stands on one line and takes up no more than 1024 characters. -/
def isStale (p : Placed) (c : Candidate) : Bool :=
  c.place.line < p.line || c.place.offset + 1024 < p.offset

def expire (sc : Scanner) (p : Placed) : Option Scanner := do
  let check := fun (c : Option Candidate) => if c.any (isStale p) then forget? c else some c
  return { sc with candidate := ← check sc.candidate, outer := ← sc.outer.mapM check }

/-- A mark between documents, or a directive: nothing is open any more. -/
def betweenDocuments (sc : Scanner) (t : Token) : Option Scanner := do
  let sc ← (sc.closeBlocks none).dropCandidate
  return { sc with keyAllowed := false }.push t

def openBracket (sc : Scanner) (p : Placed) (t : Token) : Option Scanner := do
  let sc ← sc.saveCandidate p
  return { sc with outer := sc.candidate :: sc.outer, candidate := none, keyAllowed := true }.push t

def closeBracket (sc : Scanner) (t : Token) : Option Scanner := do
  let sc ← sc.dropCandidate
  let sc := match sc.outer with
    | c :: outer => { sc with candidate := c, outer := outer }
    | [] => sc
  return { sc with keyAllowed := false }.push t

def flowEntry (sc : Scanner) : Option Scanner := do
  return { ← sc.dropCandidate with keyAllowed := true }.push .flowEntry

def blockEntry (sc : Scanner) (p : Placed) : Option Scanner := do
  if !sc.inBrackets && !sc.keyAllowed then none
  else
    let sc ← (sc.openBlock p.column none .blockSequence).dropCandidate
    return { sc with keyAllowed := true }.push .blockEntry

def keyMark (sc : Scanner) (p : Placed) : Option Scanner := do
  if !sc.inBrackets && !sc.keyAllowed then none
  else
    let sc ← (sc.openBlock p.column none .blockMapping).dropCandidate
    return { sc with keyAllowed := !sc.inBrackets }.push .key

/-- A colon: what a key may have started with is a key. -/
def valueMark (sc : Scanner) (p : Placed) : Option Scanner :=
  match sc.candidate with
  | some c =>
    let sc := (sc.insert (some c.index) .key).openBlock c.place.column (some c.index) .blockMapping
    some ({ sc with candidate := none, keyAllowed := false }.push .value)
  | none =>
    if !sc.inBrackets && !sc.keyAllowed then none
    else
      let sc := sc.openBlock p.column none .blockMapping
      some ({ sc with keyAllowed := !sc.inBrackets }.push .value)

def named (sc : Scanner) (p : Placed) (token : String → Token) (s : List Placed) :
    Option (Scanner × List Placed) := do
  let sc ← sc.saveCandidate p
  let (name, rest) := word s
  let ends := atGap rest || "?:,]\x7d%@\x60".toList.any (startsWith · rest)
  if name.isEmpty || !ends then none
  else return ({ sc with keyAllowed := false }.push (token name), rest)

def quoted (sc : Scanner) (p : Placed) (r : Option Reading) : Option (Scanner × List Placed) := do
  let sc ← sc.saveCandidate p
  let (text, s) ← r
  return ({ sc with keyAllowed := false }.push (.scalar false (String.ofList text)), s)

def blockOfLines (sc : Scanner) (folded : Bool) (s : List Placed) :
    Option (Scanner × List Placed) := do
  let sc ← sc.dropCandidate
  let (text, s) ← block folded sc.blocks.head? s
  return ({ sc with keyAllowed := true }.push (.scalar false (String.ofList text)), s)

def plainScalar (sc : Scanner) (p : Placed) (s : List Placed) : Option (Scanner × List Placed) := do
  let sc ← sc.saveCandidate p
  let (text, s, lineEnded) ← plain sc.inBrackets (sc.blocks.head?.elim 0 (· + 1)) .empty (p :: s)
  return ({ sc with keyAllowed := lineEnded }.push (.scalar true (String.ofList text)), s)

/-- A character that cannot start a plain scalar, wherever it stands. -/
def isIndicator (c : Char) : Bool := "-?:,[]\x7b\x7d#&*!|>'\"%@\x60".toList.contains c

/-- Whether a mark that may be part of a word starts one here. -/
def startsPlain (sc : Scanner) (p : Placed) (s : List Placed) : Bool :=
  !(isGap p.char || isIndicator p.char)
    || (p.char == '-' && !(s.head?.any (isBlank ·.char)))
    || (!sc.inBrackets && (p.char == '?' || p.char == ':') && !atGap s)

def token (sc : Scanner) (p : Placed) (s : List Placed) : Option (Scanner × List Placed) := do
  let before (r : Option Scanner) (s : List Placed) : Option (Scanner × List Placed) :=
    r.map (·, s)
  let marks := sc.inBrackets || atGap s
  if p.column = 0 ∧ p.char = '%' then
    let (t, s) ← directive? s
    before (sc.betweenDocuments t) s
  else if atMarker '-' (p :: s) then before (sc.betweenDocuments .documentStart) (s.drop 2)
  else if atMarker '.' (p :: s) then before (sc.betweenDocuments .documentEnd) (s.drop 2)
  else match p.char with
    | '[' => before (sc.openBracket p .flowSequence) s
    | '\x7b' => before (sc.openBracket p .flowMapping) s
    | ']' => before (sc.closeBracket .flowSequenceEnd) s
    | '\x7d' => before (sc.closeBracket .flowMappingEnd) s
    | ',' => before sc.flowEntry s
    | '*' => sc.named p .alias s
    | '&' => sc.named p .anchor s
    | '!' =>
      let sc ← sc.saveCandidate p
      let (t, s) ← tag? sc.inBrackets (p :: s)
      some ({ sc with keyAllowed := false }.push t, s)
    | '\'' => sc.quoted p (singleQuoted .empty s)
    | '"' => sc.quoted p (doubleQuoted .empty s)
    | c =>
      if c = '-' ∧ atGap s then before (sc.blockEntry p) s
      else if c = '?' ∧ marks then before (sc.keyMark p) s
      else if c = ':' ∧ marks then before (sc.valueMark p) s
      else if (c = '|' ∨ c = '>') ∧ !sc.inBrackets then sc.blockOfLines (c == '>') s
      else if sc.startsPlain p s then sc.plainScalar p s
      else none

/-- What is left after blanks, comments and empty lines, and whether a key may start there.  A tab
may stand wherever no key may start. -/
def skip (inBrackets inComment keyAllowed : Bool) : List Placed → Bool × List Placed
  | [] => (keyAllowed, [])
  | p :: s =>
    if isBreak p.char then skip inBrackets false (keyAllowed || !inBrackets) s
    else if inComment then skip inBrackets true keyAllowed s
    else if p.char == '\uFEFF' && p.column == 0 then skip inBrackets false keyAllowed s
    else if p.char == ' ' || (p.char == '\t' && (inBrackets || !keyAllowed)) then
      skip inBrackets false keyAllowed s
    else if p.char == '#' then skip inBrackets true keyAllowed s
    else (keyAllowed, p :: s)

def run (sc : Scanner) (s : List Placed) : Option (Array Token) :=
  match skip sc.inBrackets false sc.keyAllowed s with
  | (_, []) => ((sc.closeBlocks none).dropCandidate).map (·.tokens)
  | (keyAllowed, p :: t) => do
    let sc ← { sc with keyAllowed := keyAllowed }.expire p
    let (sc, rest) ← (sc.closeBlocks (some p.column)).token p t
    if rest.length < s.length then run sc rest else none
termination_by s.length

end Scanner

def tokens? (s : List Placed) : Option (List Token) := (Scanner.run {} s).map (·.toList)

end Yaml
end TenantGate
