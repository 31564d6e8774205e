import TenantGate.Json.Fault
import TenantGate.Utf8
/-!
# The words of JSON

Blanks, the three fixed words, numbers and texts, read from what is left of a document.  A number
is gathered in 64 bits; digits that no longer fit are counted and not read, so that the value of
a long decimal can differ from the nearest double in the last place.
-/

namespace TenantGate
namespace Json

def isSpace (b : UInt8) : Bool := b == 0x20 || b == 0x0a || b == 0x0d || b == 0x09

def skipSpace (s : Bytes) : Bytes := s.dropWhile isSpace

theorem length_skipSpace_le (s : Bytes) : (skipSpace s).length ≤ s.length :=
  (List.dropWhile_suffix isSpace).length_le

def word : (rest : Bytes) → Bytes → Except Fault Bytes
  | [], s => .ok s
  | _ :: _, [] => faultAt .endInValue []
  | w :: ws, b :: s => if b = w then word ws s else faultAt .expectedWord s

theorem word_append (w rest : Bytes) : word w (w ++ rest) = .ok rest := by
  induction w with
  | nil => rfl
  | cons b w ih => simpa [word] using ih

def isDigit (b : UInt8) : Bool := 0x30 ≤ b && b ≤ 0x39

def digitValue (b : UInt8) : Nat := b.toNat - 0x30

def maxUnsigned : Nat := 0xffffffffffffffff

/-- Appends decimal digits to a number as long as it fits in 64 bits; the second component counts
the digits that are left. -/
def gather (n : Nat) : Bytes → Nat × Nat
  | [] => (n, 0)
  | d :: ds =>
    if n * 10 + digitValue d ≤ maxUnsigned then gather (n * 10 + digitValue d) ds
    else (n, ds.length + 1)

def powerOfTen (e : Nat) : Float := Float.ofScientific 1 false e

/-- Divides by ten to the power of `e`, in steps that stay within the range of doubles. -/
def divideByTens (x : Float) (e : Nat) : Float :=
  if e ≤ 308 then x / powerOfTen e
  else if x == 0 then x
  else divideByTens (x / powerOfTen 308) (e - 308)
termination_by e

/-- `n * 10 ^ e`, unless it is beyond the finite doubles. -/
def scaled? (n : Nat) (e : Int) : Option Float :=
  let x := n.toUInt64.toFloat
  if 0 ≤ e then
    if e ≤ 308 then
      let y := x * powerOfTen e.toNat
      if y.isInf then none else some y
    else if x == 0 then some x else none
  else some (divideByTens x (-e).toNat)

def signed (positive : Bool) (x : Float) : Binary64 :=
  .ofFloat (if positive then x else -x)

/-- The value of gathered digits at a power of ten; the fault stands where the number ends. -/
def finishDouble (positive : Bool) (n : Nat) (e : Int) (s : Bytes) : Except Fault (Number × Bytes) :=
  match scaled? n e with
  | some x => .ok (.double (signed positive x), s)
  | none => faultAt .numberOutOfRange s

def maxExponent : Nat := 0x7fffffff

/-- An exponent as far as it fits in 31 bits, or the digits after the first that does not fit. -/
def gatherExponent (e : Nat) : Bytes → Except Bytes (Nat × Bytes)
  | [] => .ok (e, [])
  | d :: s =>
    if isDigit d then
      if e * 10 + digitValue d ≤ maxExponent then gatherExponent (e * 10 + digitValue d) s
      else .error s
    else .ok (e, d :: s)

def readExponent (positive : Bool) (n : Nat) (start : Int) (s : Bytes) :
    Except Fault (Number × Bytes) :=
  let (up, s) := match s with
    | 0x2b :: r => (true, r)
    | 0x2d :: r => (false, r)
    | s => (true, s)
  match s with
  | [] => faultAt .endInValue []
  | d :: s =>
    if isDigit d then
      match gatherExponent (digitValue d) s with
      | .ok (e, s) => finishDouble positive n (if up then start + e else start - e) s
      | .error s =>
        if n ≠ 0 ∧ up then faultAt .numberOutOfRange s
        else .ok (.double (signed positive 0), s.dropWhile isDigit)
    else faultAt .invalidNumber s

/-- What follows the point: `surplus` digits before it did not fit. -/
def readFraction (positive : Bool) (n surplus : Nat) (s : Bytes) : Except Fault (Number × Bytes) :=
  let digits := s.takeWhile isDigit
  let rest := s.dropWhile isDigit
  if digits.isEmpty then
    match rest with
    | [] => faultAt .endInValue []
    | _ :: _ => faultOn .invalidNumber rest
  else
    let (m, unread) := gather n digits
    let e : Int := surplus - (digits.length - unread : Nat)
    match rest with
    | 0x65 :: r => readExponent positive m e r
    | 0x45 :: r => readExponent positive m e r
    | r => finishDouble positive m e r

def readAfterDigits (positive : Bool) (n surplus : Nat) (s : Bytes) : Except Fault (Number × Bytes) :=
  match s with
  | 0x2e :: r => readFraction positive n surplus r
  | 0x65 :: r => readExponent positive n surplus r
  | 0x45 :: r => readExponent positive n surplus r
  | s =>
    if surplus ≠ 0 then finishDouble positive n surplus s
    else if positive then .ok (.unsigned n, s)
    else if n = 0 ∨ 0x8000000000000000 < n then .ok (.double (signed false n.toUInt64.toFloat), s)
    else .ok (.negative n, s)

def readNumber (positive : Bool) (s : Bytes) : Except Fault (Number × Bytes) :=
  match s with
  | [] => faultAt .endInValue []
  | 0x30 :: r =>
    if (r.head?.map isDigit).getD false then faultOn .invalidNumber r
    else readAfterDigits positive 0 0 r
  | d :: r =>
    if isDigit d then
      let (n, surplus) := gather (digitValue d) (r.takeWhile isDigit)
      readAfterDigits positive n surplus (r.dropWhile isDigit)
    else faultAt .invalidNumber r

def fourDigits : Bytes → Except Fault (Nat × Bytes)
  | a :: b :: c :: d :: s =>
    match Bytes.hexValue? a, Bytes.hexValue? b, Bytes.hexValue? c, Bytes.hexValue? d with
    | some a, some b, some c, some d => .ok (((a * 16 + b) * 16 + c) * 16 + d, s)
    | _, _, _, _ => faultAt .invalidEscape s
  | _ => faultAt .endInText []

def isLeading (n : Nat) : Bool := 0xd800 ≤ n && n ≤ 0xdbff

def isTrailing (n : Nat) : Bool := 0xdc00 ≤ n && n ≤ 0xdfff

def escapeMark (mark : UInt8) : Bytes → Except Fault Bytes
  | [] => faultAt .endInText []
  | b :: s => if b = mark then .ok s else faultAt .endOfEscape s

/-- A character by its number, in one escape or in a surrogate pair. -/
def numberedChar (s : Bytes) : Except Fault (Bytes × Bytes) := do
  let (n, s) ← fourDigits s
  if isTrailing n then faultAt .loneSurrogate s
  else if !isLeading n then .ok (String.utf8EncodeChar (Char.ofNat n), s)
  else
    let s ← escapeMark 0x5c s
    let s ← escapeMark 0x75 s
    let (m, s) ← fourDigits s
    if !isTrailing m then faultAt .loneSurrogate s
    else
      let c := 0x10000 + (n - 0xd800) * 0x400 + (m - 0xdc00)
      .ok (String.utf8EncodeChar (Char.ofNat c), s)

def shortEscape? (b : UInt8) : Option UInt8 :=
  if b = 0x22 ∨ b = 0x5c ∨ b = 0x2f then some b
  else if b = 0x62 then some 0x08
  else if b = 0x66 then some 0x0c
  else if b = 0x6e then some 0x0a
  else if b = 0x72 then some 0x0d
  else if b = 0x74 then some 0x09
  else none

def readEscape : Bytes → Except Fault (Bytes × Bytes)
  | [] => faultAt .endInText []
  | b :: s =>
    match shortEscape? b with
    | some c => .ok ([c], s)
    | none => if b = 0x75 then numberedChar s else faultAt .invalidEscape s

theorem length_fourDigits {s r : Bytes} {n : Nat} (h : fourDigits s = .ok (n, r)) :
    r.length < s.length := by
  match s with
  | a :: b :: c :: d :: s =>
    simp only [fourDigits] at h
    split at h
    · simp only [Except.ok.injEq, Prod.mk.injEq] at h
      simp [← h.2]
      omega
    · simp [faultAt] at h
  | [] | [_] | [_, _] | [_, _, _] => simp [fourDigits, faultAt] at h

theorem length_escapeMark {m : UInt8} {s r : Bytes} (h : escapeMark m s = .ok r) :
    r.length < s.length := by
  cases s with
  | nil => simp [escapeMark, faultAt] at h
  | cons b s =>
    simp only [escapeMark] at h
    split at h
    · simp only [Except.ok.injEq] at h
      simp [h]
    · simp [faultAt] at h

theorem length_numberedChar {s e r : Bytes} (h : numberedChar s = .ok (e, r)) :
    r.length < s.length := by
  simp only [numberedChar, bind, Except.bind] at h
  split at h
  · simp at h
  · next p hp =>
    obtain ⟨n, s₁⟩ := p
    have h₁ := length_fourDigits hp
    dsimp only at h
    split at h
    · simp [faultAt] at h
    split at h
    · obtain ⟨_, rfl⟩ := Prod.mk.inj (Except.ok.inj h)
      exact h₁
    split at h
    · simp at h
    next s₂ hs₂ =>
    have h₂ := length_escapeMark hs₂
    split at h
    · simp at h
    next s₃ hs₃ =>
    have h₃ := length_escapeMark hs₃
    split at h
    · simp at h
    next q hq =>
    obtain ⟨m, s₄⟩ := q
    have h₄ := length_fourDigits hq
    dsimp only at h
    split at h
    · simp [faultAt] at h
    · obtain ⟨_, rfl⟩ := Prod.mk.inj (Except.ok.inj h)
      omega

theorem length_readEscape {s e r : Bytes} (h : readEscape s = .ok (e, r)) :
    r.length < s.length := by
  cases s with
  | nil => simp [readEscape, faultAt] at h
  | cons b s =>
    simp only [readEscape] at h
    split at h
    · simp only [Except.ok.injEq, Prod.mk.injEq] at h
      simp [h.2]
    · split at h
      · have := length_numberedChar h
        simp only [List.length_cons]
        omega
      · simp [faultAt] at h

/-- The bytes of a text up to its closing quote; `acc` holds those before, the last one first. -/
def textBytes (acc : Bytes) : Bytes → Except Fault (Bytes × Bytes)
  | [] => faultAt .endInText []
  | b :: s =>
    if b = 0x22 then .ok (acc.reverse, s)
    else if b = 0x5c then
      match h : readEscape s with
      | .error f => .error f
      | .ok (e, r) =>
        have := length_readEscape h
        textBytes (e.reverse ++ acc) r
    else if b < 0x20 then faultAt .controlCharacter s
    else textBytes (b :: acc) s
termination_by s => s.length

/-- A text after its opening quote.  Bytes that are not UTF-8 are found when the text is complete;
the fault stands after the first of them. -/
def readText (s : Bytes) : Except Fault (String × Bytes) := do
  let (b, rest) ← textBytes [] s
  match Bytes.text? b with
  | some t => .ok (t, rest)
  | none => .error ⟨.invalidCodePoint, (Utf8.dropWellFormed s).length - 1, rest⟩

end Json
end TenantGate
