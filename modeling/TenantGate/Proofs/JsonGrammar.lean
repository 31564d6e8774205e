import TenantGate.Json.Read
import TenantGate.Proofs.Utf8Bytes
/-!
# The grammar of JSON

A tree is what a document says, and a document writes a tree: blanks may stand around all that is
written, and each character of a text has several spellings.
-/

namespace TenantGate
namespace Json

def Blank (s : Bytes) : Prop := ∀ b ∈ s, isSpace b = true

theorem blank_nil : Blank [] := by simp [Blank]

theorem skipSpace_append {w : Bytes} (hw : Blank w) (s : Bytes) : skipSpace (w ++ s) = skipSpace s :=
  List.dropWhile_append_of_pos hw

theorem skipSpace_cons {b : UInt8} (hb : isSpace b = false) (s : Bytes) :
    skipSpace (b :: s) = b :: s := by
  simp [skipSpace, hb]

theorem skipSpace_of_blank {w : Bytes} (hw : Blank w) : skipSpace w = [] := by
  simpa [skipSpace] using skipSpace_append hw []

/-- No value goes on here: what is left is empty or starts with a blank, a comma or a bracket. -/
def Ends (rest : Bytes) : Prop :=
  ∀ b ∈ rest.head?, isSpace b ∨ b = 0x2c ∨ b = 0x5d ∨ b = 0x7d

theorem Ends.blank_append {w rest : Bytes} (hw : Blank w) (h : Ends rest) : Ends (w ++ rest) := by
  cases w with
  | nil => exact h
  | cons b w =>
    intro c hc
    obtain rfl : b = c := by simpa using hc
    exact .inl (hw b List.mem_cons_self)

theorem ends_of_blank {w : Bytes} (hw : Blank w) : Ends w := by
  have h : Ends (w ++ []) := Ends.blank_append hw (by simp [Ends])
  simpa using h

theorem ends_comma (s : Bytes) : Ends (0x2c :: s) := by simp [Ends]

theorem ends_bracket (s : Bytes) : Ends (0x5d :: s) := by simp [Ends]

theorem ends_brace (s : Bytes) : Ends (0x7d :: s) := by simp [Ends]

/-- One digit or more. -/
structure Digits where
  bytes : Bytes
  ne_nil : bytes ≠ []
  all_digits : ∀ b ∈ bytes, isDigit b = true

namespace Digits

def value (d : Digits) : Nat := d.bytes.foldl (fun n b => n * 10 + digitValue b) 0

theorem exists_cons (d : Digits) :
    ∃ b r, d.bytes = b :: r ∧ isDigit b = true ∧ ∀ c ∈ r, isDigit c = true := by
  obtain ⟨b, r, h⟩ := List.exists_cons_of_ne_nil d.ne_nil
  have hall := d.all_digits
  rw [h] at hall
  exact ⟨b, r, h, hall b List.mem_cons_self, fun c hc => hall c (List.mem_cons_of_mem b hc)⟩

end Digits

theorem ne_of_isDigit {b c : UInt8} (hb : isDigit b = true) (hc : isDigit c = false) : b ≠ c := by
  rintro rfl
  rw [hb] at hc
  cases hc

/-- What stands after the point and after the letter of an exponent may have leading zeros. -/
structure Exponent where
  upper : Bool
  /-- Whether there is a sign, and whether it is a minus sign. -/
  sign : Option Bool
  digits : Digits

namespace Exponent

def bytes (e : Exponent) : Bytes :=
  (if e.upper then 0x45 else 0x65) ::
    ((match e.sign with | some true => [0x2d] | some false => [0x2b] | none => [])
      ++ e.digits.bytes)

end Exponent

structure Numeral where
  negative : Bool := false
  whole : Digits
  no_leading_zero : whole.bytes.head? = some 0x30 → whole.bytes.length = 1
  fraction : Option Digits := none
  exponent : Option Exponent := none

namespace Numeral

def tail (n : Numeral) : Bytes :=
  (match n.fraction with | some d => 0x2e :: d.bytes | none => [])
    ++ (match n.exponent with | some e => e.bytes | none => [])

def magnitude (n : Numeral) : Bytes := n.whole.bytes ++ n.tail

def bytes (n : Numeral) : Bytes := (if n.negative then [0x2d] else []) ++ n.magnitude

/-- An integer without a fraction or an exponent, of 64 bits with a sign.  Zero has no sign. -/
def int? (n : Numeral) : Option Int :=
  if n.fraction.isSome ∨ n.exponent.isSome then none
  else if n.negative then
    if n.whole.value = 0 ∨ 0x8000000000000000 < n.whole.value then none else some (-n.whole.value)
  else if n.whole.value < 0x8000000000000000 then some n.whole.value
  else none

end Numeral

/-- Four hexadecimal digits of a number. -/
def IsHex (n : Nat) (a b c d : UInt8) : Prop :=
  ∃ w x y z, Bytes.hexValue? a = some w ∧ Bytes.hexValue? b = some x ∧ Bytes.hexValue? c = some y ∧
    Bytes.hexValue? d = some z ∧ n = ((w * 16 + x) * 16 + y) * 16 + z

/-- The spellings of a text between its quotes. -/
inductive Spells : List Char → Bytes → Prop
  | nil : Spells [] []
  | plain {c : Char} {cs : List Char} {s : Bytes} (hc : 0x20 ≤ c.toNat) (hq : c ≠ '"')
      (hb : c ≠ '\\') (h : Spells cs s) : Spells (c :: cs) (String.utf8EncodeChar c ++ s)
  | short {mark value : UInt8} {cs : List Char} {s : Bytes} (hm : shortEscape? mark = some value)
      (h : Spells cs s) : Spells (Char.ofNat value.toNat :: cs) (0x5c :: mark :: s)
  | numbered {c : Char} {cs : List Char} {d₁ d₂ d₃ d₄ : UInt8} {s : Bytes}
      (hc : IsHex c.toNat d₁ d₂ d₃ d₄) (h : Spells cs s) :
      Spells (c :: cs) (0x5c :: 0x75 :: d₁ :: d₂ :: d₃ :: d₄ :: s)
  /-- A character beyond 16 bits is a pair of surrogates. -/
  | pair {c : Char} {cs : List Char} {d₁ d₂ d₃ d₄ e₁ e₂ e₃ e₄ : UInt8} {s : Bytes}
      (hc : 0x10000 ≤ c.toNat) (hd : IsHex (0xd800 + (c.toNat - 0x10000) / 0x400) d₁ d₂ d₃ d₄)
      (he : IsHex (0xdc00 + (c.toNat - 0x10000) % 0x400) e₁ e₂ e₃ e₄) (h : Spells cs s) :
      Spells (c :: cs) (0x5c :: 0x75 :: d₁ :: d₂ :: d₃ :: d₄ ::
        0x5c :: 0x75 :: e₁ :: e₂ :: e₃ :: e₄ :: s)

def isPlain (c : Char) : Bool := 0x20 ≤ c.toNat && c != '"' && c != '\\'

theorem spells_ofText (t : String) (h : t.toList.all isPlain = true) :
    Spells t.toList (Bytes.ofText t) := by
  rw [Bytes.ofText_eq_flatMap]
  generalize t.toList = cs at h
  induction cs with
  | nil => exact .nil
  | cons c cs ih =>
    simp only [List.all_cons, isPlain, Bool.and_eq_true, decide_eq_true_eq, bne_iff_ne] at h
    obtain ⟨⟨⟨hc, hq⟩, hb⟩, hcs⟩ := h
    exact .plain hc hq hb (ih hcs)

def escapeLines (t : String) : Bytes :=
  t.toList.flatMap fun c => if c = '\n' then [0x5c, 0x6e] else String.utf8EncodeChar c

theorem spells_escapeLines (t : String)
    (h : (t.toList.all fun c => isPlain c || c == '\n') = true) :
    Spells t.toList (escapeLines t) := by
  unfold escapeLines
  generalize t.toList = cs at h
  induction cs with
  | nil => exact .nil
  | cons c cs ih =>
    simp only [List.all_cons, Bool.and_eq_true] at h
    obtain ⟨hc, hcs⟩ := h
    rw [List.flatMap_cons]
    by_cases hline : c = '\n'
    · subst hline
      have hescape : shortEscape? 0x6e = some 0x0a := by decide
      exact .short hescape (ih hcs)
    · simp only [isPlain, Bool.or_eq_true, Bool.and_eq_true, decide_eq_true_eq, bne_iff_ne,
        beq_iff_eq, hline, or_false] at hc
      obtain ⟨⟨hcontrol, hquote⟩, hbackslash⟩ := hc
      rw [if_neg hline]
      exact .plain hcontrol hquote hbackslash (ih hcs)

inductive Tree
  | null
  | boolean (b : Bool)
  | number (n : Numeral)
  | text (s : String)
  | list (elements : List Tree)
  | object (members : List (String × Tree))

/-- What a part of a document is a writing of; lists and objects with something in them are written
one by one. -/
inductive Part
  | value (v : Tree)
  | elements (v : Tree) (vs : List Tree)
  | member (m : String × Tree)
  | members (m : String × Tree) (ms : List (String × Tree))

inductive Writes : Part → Bytes → Prop
  | null {w : Bytes} (hw : Blank w) : Writes (.value .null) (w ++ [0x6e, 0x75, 0x6c, 0x6c])
  | yes {w : Bytes} (hw : Blank w) :
      Writes (.value (.boolean true)) (w ++ [0x74, 0x72, 0x75, 0x65])
  | no {w : Bytes} (hw : Blank w) :
      Writes (.value (.boolean false)) (w ++ [0x66, 0x61, 0x6c, 0x73, 0x65])
  | number {w : Bytes} (hw : Blank w) (n : Numeral) : Writes (.value (.number n)) (w ++ n.bytes)
  | text {w : Bytes} {t : String} {s : Bytes} (hw : Blank w) (h : Spells t.toList s) :
      Writes (.value (.text t)) (w ++ 0x22 :: (s ++ [0x22]))
  | emptyList {w w' : Bytes} (hw : Blank w) (hw' : Blank w') :
      Writes (.value (.list [])) (w ++ 0x5b :: (w' ++ [0x5d]))
  | list {w w' : Bytes} {v : Tree} {vs : List Tree} {s : Bytes} (hw : Blank w)
      (h : Writes (.elements v vs) s) (hw' : Blank w') :
      Writes (.value (.list (v :: vs))) (w ++ 0x5b :: (s ++ (w' ++ [0x5d])))
  | emptyObject {w w' : Bytes} (hw : Blank w) (hw' : Blank w') :
      Writes (.value (.object [])) (w ++ 0x7b :: (w' ++ [0x7d]))
  | object {w w' : Bytes} {m : String × Tree} {ms : List (String × Tree)} {s : Bytes}
      (hw : Blank w) (h : Writes (.members m ms) s) (hw' : Blank w') :
      Writes (.value (.object (m :: ms))) (w ++ 0x7b :: (s ++ (w' ++ [0x7d])))
  | lastElement {v : Tree} {s : Bytes} (h : Writes (.value v) s) : Writes (.elements v []) s
  | element {v v' : Tree} {vs : List Tree} {s s' w : Bytes} (h : Writes (.value v) s)
      (hw : Blank w) (hs : Writes (.elements v' vs) s') :
      Writes (.elements v (v' :: vs)) (s ++ (w ++ 0x2c :: s'))
  | pair {w w' : Bytes} {name : String} {v : Tree} {n s : Bytes} (hw : Blank w)
      (hn : Spells name.toList n) (hw' : Blank w') (h : Writes (.value v) s) :
      Writes (.member (name, v)) (w ++ 0x22 :: (n ++ 0x22 :: (w' ++ 0x3a :: s)))
  | lastMember {m : String × Tree} {s : Bytes} (h : Writes (.member m) s) :
      Writes (.members m []) s
  | moreMembers {m m' : String × Tree} {ms : List (String × Tree)} {s s' w : Bytes}
      (h : Writes (.member m) s) (hw : Blank w) (hs : Writes (.members m' ms) s') :
      Writes (.members m (m' :: ms)) (s ++ (w ++ 0x2c :: s'))

theorem Numeral.bytes_eq_cons (n : Numeral) :
    ∃ b r, n.bytes = b :: r ∧ (b = 0x2d ∨ isDigit b = true) := by
  unfold bytes
  split
  · exact ⟨_, _, rfl, .inl rfl⟩
  · obtain ⟨b, r, h, hb, _⟩ := n.whole.exists_cons
    exact ⟨b, r ++ n.tail, by simp [magnitude, h], .inr hb⟩

def IsLead (b : UInt8) : Prop :=
  b = 0x6e ∨ b = 0x74 ∨ b = 0x66 ∨ b = 0x2d ∨ isDigit b = true ∨ b = 0x22 ∨ b = 0x5b ∨ b = 0x7b

instance (b : UInt8) : Decidable (IsLead b) := by
  unfold IsLead
  infer_instance

theorem IsLead.ne {b c : UInt8} (hb : IsLead b) (hc : ¬IsLead c) : b ≠ c := by
  rintro rfl
  exact hc hb

theorem not_isSpace_of_isDigit {b : UInt8} (h : isDigit b = true) : isSpace b = false := by
  simp only [isDigit, Bool.and_eq_true, decide_eq_true_eq] at h
  have hne : ∀ c : UInt8, c < 0x30 → b ≠ c := by
    rintro c hc rfl
    exact absurd h.1 (UInt8.not_le.2 hc)
  simp [isSpace, hne]

theorem not_isSpace_of_isLead {b : UInt8} (h : IsLead b) : isSpace b = false := by
  rcases h with rfl | rfl | rfl | rfl | h | rfl | rfl | rfl
  case inr.inr.inr.inr.inl => exact not_isSpace_of_isDigit h
  all_goals decide

theorem skipSpace_lead {w : Bytes} (hw : Blank w) {b : UInt8} (hb : IsLead b) (s : Bytes) :
    skipSpace (w ++ b :: s) = b :: s := by
  rw [skipSpace_append hw, skipSpace_cons (not_isSpace_of_isLead hb)]

section Brackets

variable {w : Bytes} (hw : Blank w) {b : UInt8} (hb : IsLead b)
include hw hb

theorem skipSpace_quoted (s : Bytes) (e : UInt8) (rest : Bytes) :
    skipSpace (w ++ b :: (s ++ [e]) ++ rest) = b :: (s ++ e :: rest) := by
  simpa using skipSpace_lead hw hb (s ++ e :: rest)

theorem skipSpace_bracketed (s w' : Bytes) (e : UInt8) (rest : Bytes) :
    skipSpace (w ++ b :: (s ++ (w' ++ [e])) ++ rest) = b :: (s ++ (w' ++ e :: rest)) := by
  simpa using skipSpace_lead hw hb (s ++ (w' ++ e :: rest))

end Brackets

/-- Each kind of value has first bytes of its own. -/
def Tree.Leads : Tree → UInt8 → Prop
  | .null, b => b = 0x6e
  | .boolean true, b => b = 0x74
  | .boolean false, b => b = 0x66
  | .number _, b => b = 0x2d ∨ isDigit b = true
  | .text _, b => b = 0x22
  | .list _, b => b = 0x5b
  | .object _, b => b = 0x7b

theorem Tree.Leads.isLead {v : Tree} {b : UInt8} (h : v.Leads b) : IsLead b := by
  cases v with
  | boolean value =>
    cases value with
    | true => exact .inr (.inl h)
    | false => exact .inr (.inr (.inl h))
  | number n =>
    rcases h with rfl | hd
    · decide
    · simp [IsLead, hd]
  | null | text | list | object =>
    obtain rfl := h
    decide

theorem Tree.Leads.eq_null {v : Tree} (h : v.Leads 0x6e) : v = .null := by
  cases v with
  | null => rfl
  | boolean value => cases value <;> simp [Leads] at h
  | number n => rcases h with h | h <;> exact absurd h (by decide)
  | text | list | object => simp [Leads] at h

theorem Writes.exists_lead {v : Tree} {s : Bytes} (h : Writes (.value v) s) (rest : Bytes) :
    ∃ b r, skipSpace (s ++ rest) = b :: r ∧ v.Leads b := by
  have start : ∃ w b r, Blank w ∧ s = w ++ b :: r ∧ v.Leads b := by
    cases h with
    | null hw => exact ⟨_, _, _, hw, rfl, rfl⟩
    | yes hw => exact ⟨_, _, _, hw, rfl, rfl⟩
    | no hw => exact ⟨_, _, _, hw, rfl, rfl⟩
    | number hw n =>
      obtain ⟨b, r, hb, hd⟩ := n.bytes_eq_cons
      exact ⟨_, b, r, hw, by rw [hb], hd⟩
    | text hw _ => exact ⟨_, _, _, hw, rfl, rfl⟩
    | emptyList hw _ => exact ⟨_, _, _, hw, rfl, rfl⟩
    | list hw _ _ => exact ⟨_, _, _, hw, rfl, rfl⟩
    | emptyObject hw _ => exact ⟨_, _, _, hw, rfl, rfl⟩
    | object hw _ _ => exact ⟨_, _, _, hw, rfl, rfl⟩
  obtain ⟨w, b, r, hw, rfl, hb⟩ := start
  exact ⟨b, r ++ rest, by simpa using skipSpace_lead hw hb.isLead (r ++ rest), hb⟩

theorem Writes.exists_lead_elements {v : Tree} {vs : List Tree} {s : Bytes}
    (h : Writes (.elements v vs) s) (rest : Bytes) :
    ∃ b r, skipSpace (s ++ rest) = b :: r ∧ IsLead b := by
  have first : ∀ {s}, Writes (.value v) s → ∀ rest, ∃ b r, skipSpace (s ++ rest) = b :: r ∧ IsLead b :=
    fun h rest =>
      let ⟨b, r, hs, hb⟩ := h.exists_lead rest
      ⟨b, r, hs, hb.isLead⟩
  cases h with
  | lastElement h => exact first h rest
  | element h _ _ =>
    rw [List.append_assoc]
    exact first h _

theorem Writes.exists_quote {m : String × Tree} {s : Bytes} (h : Writes (.member m) s)
    (rest : Bytes) : ∃ r, skipSpace (s ++ rest) = 0x22 :: r := by
  cases h with
  | pair hw hn hw' h => exact ⟨_, by simpa using skipSpace_lead hw (b := 0x22) (by decide) _⟩

theorem Writes.exists_quote_members {m : String × Tree} {ms : List (String × Tree)} {s : Bytes}
    (h : Writes (.members m ms) s) (rest : Bytes) : ∃ r, skipSpace (s ++ rest) = 0x22 :: r := by
  cases h with
  | lastMember h => exact h.exists_quote rest
  | moreMembers h _ _ =>
    rw [List.append_assoc]
    exact h.exists_quote _

end Json
end TenantGate
