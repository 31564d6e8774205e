/-!
# Bytes on the wire

Bodies, header values and request lines are lists of bytes.  Text is a string of Unicode
characters; a string has one UTF-8 form, and only well-formed UTF-8 is read back as text.
-/

namespace TenantGate

abbrev Bytes := List UInt8

namespace Bytes

def ofText (s : String) : Bytes := s.toUTF8.data.toList

def text? (b : Bytes) : Option String := String.fromUTF8? ⟨b.toArray⟩

theorem text?_ofText (s : String) : text? (ofText s) = some s := by
  have h : (⟨s.toByteArray.data.toList.toArray⟩ : ByteArray) = s.toByteArray := by simp
  simp only [text?, ofText, String.toUTF8, h, String.fromUTF8?]
  simp [s.isValidUTF8, String.fromUTF8]

theorem ofText_of_text? {b : Bytes} {s : String} (h : text? b = some s) : ofText s = b := by
  simp only [text?, String.fromUTF8?] at h
  split at h
  · simp only [Option.some.injEq] at h
    subst h
    simp [ofText, String.toUTF8, String.fromUTF8]
  · simp at h

theorem text?_eq_some_iff {b : Bytes} {s : String} : text? b = some s ↔ ofText s = b :=
  ⟨ofText_of_text?, fun h => h ▸ text?_ofText s⟩

/-- Text of which each character stands for one byte. -/
def latin1 (b : Bytes) : String := String.ofList (b.map fun x => Char.ofNat x.toNat)

def ofChar (c : Char) : UInt8 := c.val.toUInt8

def hexDigit (n : Nat) : Char :=
  if n < 10 then Char.ofNat (48 + n) else Char.ofNat (87 + n)

def hex (b : Bytes) : String :=
  String.ofList (b.flatMap fun x => [hexDigit (x.toNat / 16), hexDigit (x.toNat % 16)])

def hexValue? (x : UInt8) : Option Nat :=
  if 48 ≤ x ∧ x ≤ 57 then some (x.toNat - 48)
  else if 97 ≤ x ∧ x ≤ 102 then some (x.toNat - 87)
  else if 65 ≤ x ∧ x ≤ 70 then some (x.toNat - 55)
  else none

/-- The number whose digits to base 256 these are, the most significant first. -/
def bigEndian (b : Bytes) : Nat := b.foldl (fun n x => n * 256 + x.toNat) 0

/-- The lowest `width` digits of `n` to base 256, the most significant first. -/
def ofBigEndian : (width : Nat) → (n : Nat) → Bytes
  | 0, _ => []
  | w + 1, n => ofBigEndian w (n / 256) ++ [UInt8.ofNat n]

def ofLittleEndian : (width : Nat) → (n : Nat) → Bytes
  | 0, _ => []
  | w + 1, n => UInt8.ofNat n :: ofLittleEndian w (n / 256)

def littleEndian : Bytes → Nat
  | [] => 0
  | x :: r => x.toNat + 256 * littleEndian r

@[simp] theorem length_ofLittleEndian (w n : Nat) : (ofLittleEndian w n).length = w := by
  induction w generalizing n with
  | zero => rfl
  | succ w ih => simp [ofLittleEndian, ih]

theorem littleEndian_ofLittleEndian (w n : Nat) :
    littleEndian (ofLittleEndian w n) = n % Nat.pow 256 w := by
  change _ = n % 256 ^ w
  induction w generalizing n with
  | zero => simp [ofLittleEndian, littleEndian, Nat.mod_one]
  | succ w ih =>
    have byte : (UInt8.ofNat n).toNat = n % 256 := UInt8.toNat_ofNat'
    rw [ofLittleEndian, littleEndian, ih, byte, Nat.pow_succ', Nat.mod_mul]

end Bytes
end TenantGate
