import TenantGate.Yaml.Token
/-!
# Nodes

A stream holds one document at most, and a document one node.  An anchor gives a node a number, by
which an alias refers to it; a number that is given twice means the later node.
-/

namespace TenantGate
namespace Yaml

structure Properties where
  anchor : Option Nat := none
  tag : Option Bytes := none
  deriving DecidableEq, Repr

inductive Node
  | scalar (properties : Properties) (isPlain : Bool) (text : String)
  | alias (number : Nat)
  | sequence (properties : Properties) (items : List Node)
  | mapping (properties : Properties) (entries : List (Node × Node))
  deriving Repr

namespace Node

def empty : Node := .scalar {} true ""

structure State where
  tokens : List Token
  /-- The anchors by their names. -/
  anchors : List (String × Nat) := []

abbrev Reader := StateT State Option

def next : Reader (Option Token) := do return (← get).tokens.head?

def advance : Reader Unit := modify fun s => { s with tokens := s.tokens.drop 1 }

def take (t : Token) : Reader Bool := do
  if (← next) = some t then
    advance
    return true
  else return false

def expect (t : Token) : Reader Unit := do
  if ← take t then return () else failure

/-- The number of a new anchor is the number of names that were used before. -/
def declare (name : String) : Reader Nat := do
  let s ← get
  let number := s.anchors.length
  set { s with anchors := (name, number) :: s.anchors.filter (·.1 ≠ name) }
  return number

def numberOf (name : String) : Reader Nat := do
  match (← get).anchors.lookup name with
  | some number => return number
  | none => failure

abbrev TagHandles := List (String × Bytes)

def commonHandles : TagHandles :=
  [("!", Bytes.ofText "!"), ("!!", Bytes.ofText "tag:yaml.org,2002:")]

def tagOf (handles : TagHandles) (handle : String) (suffix : Bytes) : Reader Bytes :=
  if handle.isEmpty then return suffix
  else match handles.lookup handle with
    | some start => return start ++ suffix
    | none => failure

def properties (handles : TagHandles) : Reader Properties := do
  match ← next with
  | some (.anchor name) =>
    advance
    match ← next with
    | some (.tag handle suffix) =>
      advance
      let tag ← tagOf handles handle suffix
      return ⟨some (← declare name), some tag⟩
    | _ => return ⟨some (← declare name), none⟩
  | some (.tag handle suffix) =>
    advance
    match ← next with
    | some (.anchor name) =>
      advance
      let tag ← tagOf handles handle suffix
      return ⟨some (← declare name), some tag⟩
    | _ => return ⟨none, some (← tagOf handles handle suffix)⟩
  | _ => return {}

/-- What is read next: a node, or the rest of a collection. -/
inductive Goal : Type → Type
  /-- A node; only in a block may it be a block itself, and only as a part of a mapping may a
  sequence stand without being indented. -/
  | node (inBlock inMapping : Bool) : Goal Node
  | blockItems : Goal (List Node)
  | looseItems : Goal (List Node)
  | blockEntries : Goal (List (Node × Node))
  | flowItems (first : Bool) : Goal (List Node)
  | flowEntries (first : Bool) : Goal (List (Node × Node))

def orEmpty (stops : List Token) (read : Reader Node) : Reader Node := do
  if (← next).any stops.contains then return empty else read

def valueOrEmpty (stops : List Token) (read : Reader Node) : Reader Node := do
  if ← take .value then orEmpty stops read else return empty

/-- The key of a mapping of one entry; the mark after an empty key is lost with it. -/
def flowKey (read : Reader Node) : Reader Node := do
  if (← next).any [Token.value, .flowEntry, .flowSequenceEnd].contains then
    advance
    return empty
  else read

/-- Reads by recursive descent; each level of it takes one of `fuel`. -/
def read (handles : TagHandles) : (fuel : Nat) → {α : Type} → Goal α → Reader α
  | 0, _, _ => failure
  | fuel + 1, _, .node inBlock inMapping => do
    match ← next with
    | some (.alias name) =>
      advance
      return .alias (← numberOf name)
    | _ =>
      let props ← properties handles
      match ← next with
      | some (.scalar isPlain text) =>
        advance
        return .scalar props isPlain text
      | some .flowSequence =>
        advance
        return .sequence props (← read handles fuel (.flowItems true))
      | some .flowMapping =>
        advance
        return .mapping props (← read handles fuel (.flowEntries true))
      | t =>
        if inMapping ∧ t = some .blockEntry then
          return .sequence props (← read handles fuel .looseItems)
        else if inBlock ∧ t = some .blockSequence then
          advance
          return .sequence props (← read handles fuel .blockItems)
        else if inBlock ∧ t = some .blockMapping then
          advance
          return .mapping props (← read handles fuel .blockEntries)
        else if props = {} then failure
        else return .scalar props true ""
  | fuel + 1, _, .blockItems => do
    if ← take .blockEntry then
      let item ← orEmpty [.blockEntry, .blockEnd] (read handles fuel (.node true false))
      return item :: (← read handles fuel .blockItems)
    else
      expect .blockEnd
      return []
  | fuel + 1, _, .looseItems => do
    if ← take .blockEntry then
      let item ← orEmpty [.blockEntry, .key, .value, .blockEnd]
        (read handles fuel (.node true false))
      return item :: (← read handles fuel .looseItems)
    else return []
  | fuel + 1, _, .blockEntries => do
    if ← take .key then
      let key ← orEmpty [.key, .value, .blockEnd] (read handles fuel (.node true true))
      let value ← valueOrEmpty [.key, .value, .blockEnd] (read handles fuel (.node true true))
      return (key, value) :: (← read handles fuel .blockEntries)
    else
      expect .blockEnd
      return []
  | fuel + 1, _, .flowItems first => do
    if ← take .flowSequenceEnd then return []
    else
      if !first then expect .flowEntry
      if ← take .key then
        let key ← flowKey (read handles fuel (.node false false))
        let value ← valueOrEmpty [.flowEntry, .flowSequenceEnd]
          (read handles fuel (.node false false))
        return .mapping {} [(key, value)] :: (← read handles fuel (.flowItems false))
      else if ← take .flowSequenceEnd then return []
      else
        let item ← read handles fuel (.node false false)
        return item :: (← read handles fuel (.flowItems false))
  | fuel + 1, _, .flowEntries first => do
    if ← take .flowMappingEnd then return []
    else
      if !first then expect .flowEntry
      if ← take .key then
        let key ← orEmpty [.value, .flowEntry, .flowMappingEnd]
          (read handles fuel (.node false false))
        let value ← valueOrEmpty [.flowEntry, .flowMappingEnd]
          (read handles fuel (.node false false))
        return (key, value) :: (← read handles fuel (.flowEntries false))
      else if ← take .flowMappingEnd then return []
      else
        let key ← read handles fuel (.node false false)
        return (key, empty) :: (← read handles fuel (.flowEntries false))

def isKnownVersion (major minor : Nat) : Bool := major == 1 && (minor == 1 || minor == 2)

/-- What the directives before a document say; each of them is given once. -/
def directives (versioned : Bool) (handles : TagHandles) :
    List Token → Option (TagHandles × List Token)
  | .version major minor :: ts =>
    if versioned || !isKnownVersion major minor then none else directives true handles ts
  | .tagHandle handle start :: ts =>
    if (handles.lookup handle).isSome then none
    else directives versioned ((handle, start) :: handles) ts
  | ts => some (handles, ts)

def isAfterDocument : Token → Bool
  | .version _ _ => true
  | .tagHandle _ _ => true
  | .documentStart => true
  | .documentEnd => true
  | _ => false

def ofTokens? (ts : List Token) : Option (Option Node) := do
  let fuel := 3 * ts.length + 3
  let root (handles : TagHandles) (ts : List Token) : Option (Node × State) :=
    read (handles ++ commonHandles) fuel (.node true false) ⟨ts, []⟩
  match ts with
  | [] => return none
  | t :: _ =>
    let (node, s) ←
      if isAfterDocument t ∧ t ≠ .documentEnd then do
        let (handles, ts) ← directives false [] ts
        match ts with
        | .documentStart :: ts =>
          if ts.head?.all isAfterDocument then some (empty, ⟨ts, []⟩) else root handles ts
        | _ => none
      else root [] ts
    if s.tokens.all (· == .documentEnd) then return some node else none

mutual

/-- A node and all that it holds, in reading order. -/
def nodes : Node → List Node
  | .sequence p items => .sequence p items :: nodesOfItems items
  | .mapping p entries => .mapping p entries :: nodesOfEntries entries
  | n => [n]

def nodesOfItems : List Node → List Node
  | [] => []
  | n :: ns => nodes n ++ nodesOfItems ns

def nodesOfEntries : List (Node × Node) → List Node
  | [] => []
  | (k, v) :: es => nodes k ++ nodes v ++ nodesOfEntries es

end

def anchor? : Node → Option Nat
  | .scalar p _ _ => p.anchor
  | .alias _ => none
  | .sequence p _ => p.anchor
  | .mapping p _ => p.anchor

/-- The node that an alias inside of `root` means; every other node means itself. -/
def resolve (root : Node) : Node → Option Node
  | .alias number => (nodes root).reverse.find? (·.anchor? == some number)
  | n => some n

end Node

/-- The node of the document in a stream of UTF-8, or nothing if there is no document.  Texts that
are not one document have no reading. -/
def node? (b : Bytes) : Option (Option Node) := do
  Node.ofTokens? (← tokens? (← placed? b))

end Yaml
end TenantGate
