import TenantGate.Json.Lex
/-!
# Values that nobody reads

A member that no reader asked for is passed over.  Only its form is checked: a number may be of
any size, the bytes of a text need not be UTF-8, and surrogates need not be paired.  The brackets
that are open are kept in a list, so that a value may be nested to any depth.
-/

namespace TenantGate
namespace Json

inductive Bracket
  | list
  | object
  deriving DecidableEq, Repr

def skipExponent (s : Bytes) : Except Fault Bytes :=
  let s := match s with
    | 0x2b :: r => r
    | 0x2d :: r => r
    | s => s
  match s with
  | [] => faultAt .invalidNumber []
  | d :: s => if isDigit d then .ok (s.dropWhile isDigit) else faultAt .invalidNumber s

def skipAfterFraction (s : Bytes) : Except Fault Bytes :=
  match s with
  | 0x65 :: r => skipExponent r
  | 0x45 :: r => skipExponent r
  | s => .ok s

def skipFraction (s : Bytes) : Except Fault Bytes :=
  if (s.takeWhile isDigit).isEmpty then faultOn .invalidNumber s
  else skipAfterFraction (s.dropWhile isDigit)

def skipAfterDigits (s : Bytes) : Except Fault Bytes :=
  match s with
  | 0x2e :: r => skipFraction r
  | s => skipAfterFraction s

def skipNumber (s : Bytes) : Except Fault Bytes :=
  match s with
  | [] => faultAt .invalidNumber []
  | 0x30 :: r =>
    if (r.head?.map isDigit).getD false then faultOn .invalidNumber r else skipAfterDigits r
  | d :: r =>
    if isDigit d then skipAfterDigits (r.dropWhile isDigit) else faultAt .invalidNumber r

def skipEscape : Bytes → Except Fault Bytes
  | [] => faultAt .endInText []
  | b :: s =>
    if (shortEscape? b).isSome then .ok s
    else if b = 0x75 then (fourDigits s).map (·.2)
    else faultAt .invalidEscape s

theorem length_dropWhile_le (p : UInt8 → Bool) (s : Bytes) :
    (s.dropWhile p).length ≤ s.length :=
  (List.dropWhile_suffix p).length_le

theorem length_skipExponent {s r : Bytes} (h : skipExponent s = .ok r) :
    r.length ≤ s.length := by
  have key : ∀ t : Bytes, (match t with
      | [] => faultAt .invalidNumber []
      | d :: s => if isDigit d then .ok (s.dropWhile isDigit) else faultAt .invalidNumber s)
        = Except.ok r → r.length ≤ t.length := by
    intro t ht
    cases t with
    | nil => simp [faultAt] at ht
    | cons d t =>
      dsimp only at ht
      split at ht
      · have := length_dropWhile_le isDigit t
        simp only [Except.ok.injEq] at ht
        simp [← ht]
        omega
      · simp [faultAt] at ht
  unfold skipExponent at h
  have := key _ h
  split at this <;> simp_all
  all_goals omega

theorem length_skipAfterFraction {s r : Bytes} (h : skipAfterFraction s = .ok r) :
    r.length ≤ s.length := by
  unfold skipAfterFraction at h
  split at h
  · have := length_skipExponent h
    simp only [List.length_cons]
    omega
  · have := length_skipExponent h
    simp only [List.length_cons]
    omega
  · simp_all

theorem length_skipAfterDigits {s r : Bytes} (h : skipAfterDigits s = .ok r) :
    r.length ≤ s.length := by
  unfold skipAfterDigits at h
  split at h
  · next s' =>
    unfold skipFraction at h
    split at h
    · simp [faultOn] at h
    · have := length_skipAfterFraction h
      have := length_dropWhile_le isDigit s'
      simp only [List.length_cons]
      omega
  · exact length_skipAfterFraction h

theorem length_skipNumber {s r : Bytes} (h : skipNumber s = .ok r) : r.length < s.length := by
  unfold skipNumber at h
  split at h
  · simp [faultAt] at h
  · split at h
    · simp [faultOn] at h
    · have := length_skipAfterDigits h
      simp only [List.length_cons]
      omega
  · next d s' _ =>
    split at h
    · have := length_skipAfterDigits h
      have := length_dropWhile_le isDigit s'
      simp only [List.length_cons]
      omega
    · simp [faultAt] at h

theorem length_skipEscape {s r : Bytes} (h : skipEscape s = .ok r) : r.length < s.length := by
  cases s with
  | nil => simp [skipEscape, faultAt] at h
  | cons b s =>
    simp only [skipEscape] at h
    split at h
    · simp_all
    · split at h
      · cases hf : fourDigits s with
        | error f => simp [hf, Except.map] at h
        | ok p =>
          have := length_fourDigits (s := s) (n := p.1) (r := p.2) (by simp [hf])
          simp only [hf, Except.map, Except.ok.injEq] at h
          simp only [List.length_cons, ← h]
          omega
      · simp [faultAt] at h

def skipText : Bytes → Except Fault Bytes
  | [] => faultAt .endInText []
  | b :: s =>
    if b = 0x22 then .ok s
    else if b = 0x5c then
      match h : skipEscape s with
      | .error f => .error f
      | .ok r =>
        have := length_skipEscape h
        skipText r
    else if b < 0x20 then faultAt .controlCharacter (b :: s)
    else skipText s
termination_by s => s.length

theorem length_skipText {s r : Bytes} (h : skipText s = .ok r) : r.length < s.length := by
  fun_induction skipText s with
  | case1 => simp [faultAt] at h
  | case2 => simp_all
  | case3 => simp at h
  | case4 b s _ _ _ ih =>
    have := ih h
    simp only [List.length_cons]
    omega
  | case5 => simp [faultAt] at h
  | case6 b s _ _ _ ih =>
    have := ih h
    simp only [List.length_cons]
    omega

theorem length_word {w s r : Bytes} (h : word w s = .ok r) : r.length ≤ s.length := by
  induction w generalizing s with
  | nil => simp_all [word]
  | cons b w ih =>
    cases s with
    | nil => simp [word, faultAt] at h
    | cons c s =>
      simp only [word] at h
      split at h
      · have := ih h
        simp only [List.length_cons]
        omega
      · simp [faultAt] at h

def skipScalar : Bytes → Except Fault Bytes
  | [] => faultAt .endInValue []
  | b :: s =>
    if b = 0x6e then word [0x75, 0x6c, 0x6c] s
    else if b = 0x74 then word [0x72, 0x75, 0x65] s
    else if b = 0x66 then word [0x61, 0x6c, 0x73, 0x65] s
    else if b = 0x2d then skipNumber s
    else if isDigit b then skipNumber (b :: s)
    else if b = 0x22 then skipText s
    else faultOn .expectedValue (b :: s)

theorem length_skipScalar {s r : Bytes} (h : skipScalar s = .ok r) : r.length < s.length := by
  cases s with
  | nil => simp [skipScalar, faultAt] at h
  | cons b s =>
    simp only [skipScalar] at h
    have hw : ∀ w, word w s = .ok r → r.length < (b :: s).length := by
      intro w hw
      have := length_word hw
      simp only [List.length_cons]
      omega
    split at h
    · exact hw _ h
    split at h
    · exact hw _ h
    split at h
    · exact hw _ h
    split at h
    · have := length_skipNumber h
      simp only [List.length_cons]
      omega
    split at h
    · exact length_skipNumber h
    split at h
    · have := length_skipText h
      simp only [List.length_cons]
      omega
    · simp [faultOn] at h

theorem length_of_skipSpace {s r : Bytes} {b : UInt8} (h : skipSpace s = b :: r) :
    r.length < s.length := by
  have := length_skipSpace_le s
  rw [h] at this
  exact this

/-- What has to come next inside the open brackets. -/
inductive Want
  | value
  | member
  | close
  deriving DecidableEq, Repr

/-- Passes over everything up to the end of the outermost value. -/
def skipWanted (want : Want) (stack : List Bracket) (s : Bytes) : Except Fault Bytes :=
  match want with
  | .value =>
    match h : skipSpace s with
    | 0x5b :: r =>
      have := length_of_skipSpace h
      match h' : skipSpace r with
      | [] => faultAt .endInList []
      | 0x5d :: r' =>
        have := length_of_skipSpace h'
        skipWanted .close stack r'
      | _ :: _ => skipWanted .value (.list :: stack) r
    | 0x7b :: r =>
      have := length_of_skipSpace h
      match h' : skipSpace r with
      | [] => faultAt .endInObject []
      | 0x7d :: r' =>
        have := length_of_skipSpace h'
        skipWanted .close stack r'
      | _ :: _ => skipWanted .member (.object :: stack) r
    | s' =>
      match h' : skipScalar s' with
      | .error f => .error f
      | .ok r =>
        have : r.length < s.length :=
          Nat.lt_of_lt_of_le (length_skipScalar h') (h ▸ length_skipSpace_le s)
        skipWanted .close stack r
  | .member =>
    match h : skipSpace s with
    | [] => faultAt .endInObject []
    | 0x22 :: r =>
      have := length_of_skipSpace h
      match h' : skipText r with
      | .error f => .error f
      | .ok r =>
        have := length_skipText h'
        match h'' : skipSpace r with
        | [] => faultAt .endInObject []
        | 0x3a :: r' =>
          have := length_of_skipSpace h''
          skipWanted .value stack r'
        | c :: r' => faultOn .expectedColon (c :: r')
    | c :: r => faultOn .keyNotText (c :: r)
  | .close =>
    match stack with
    | [] => .ok s
    | .list :: outer =>
      match h : skipSpace s with
      | [] => faultAt .endInList []
      | 0x2c :: r =>
        have := length_of_skipSpace h
        skipWanted .value (.list :: outer) r
      | 0x5d :: r =>
        have := length_of_skipSpace h
        skipWanted .close outer r
      | c :: r => faultOn .expectedCommaOrListEnd (c :: r)
    | .object :: outer =>
      match h : skipSpace s with
      | [] => faultAt .endInObject []
      | 0x2c :: r =>
        have := length_of_skipSpace h
        skipWanted .member (.object :: outer) r
      | 0x7d :: r =>
        have := length_of_skipSpace h
        skipWanted .close outer r
      | c :: r => faultOn .expectedCommaOrObjectEnd (c :: r)
termination_by s.length

def skipValue (s : Bytes) : Except Fault Bytes := skipWanted .value [] s

end Json
end TenantGate
