import TenantGate.Text.Characters
import TenantGate.Text.Percent
/-!
# Reading what is percent-encoded

A text may be cut before any character that is no hexadecimal digit and read in parts, and encoding
some of its characters does not change what it stands for.
-/

namespace TenantGate
namespace Percent

theorem forall_digit {P : Char → Prop}
    (h : ∀ n < 128, (digitValue? (Char.ofNat n)).isSome = true → P (Char.ofNat n)) {c : Char}
    (hc : (digitValue? c).isSome = true) : P c := by
  have hlt : c.toNat < 128 := by
    by_cases hlt : c.toNat < 128
    · exact hlt
    · simp [digitValue?, hlt] at hc
  exact Text.forall_ascii (P := fun c => (digitValue? c).isSome = true → P c) h hlt hc

theorem digitValue?_lt {c : Char} {x : Nat} (h : digitValue? c = some x) : x < 16 := by
  have hall : (digitValue? c).all (· < 16) = true :=
    forall_digit (P := fun c => (digitValue? c).all (· < 16) = true) (by decide) (by rw [h]; rfl)
  rw [h] at hall
  exact of_decide_eq_true hall

theorem digitValue?_upperDigit {n : Nat} (h : n < 16) : digitValue? (upperDigit n) = some n := by
  have every : ∀ n < 16, digitValue? (upperDigit n) = some n := by decide
  exact every n h

/-- A text that starts with two hexadecimal digits. -/
def StartsByte (s : List Char) : Prop :=
  ∃ a b x y r, s = a :: b :: r ∧ digitValue? a = some x ∧ digitValue? b = some y

theorem decode_byte {a b : Char} {x y : Nat} (ha : digitValue? a = some x)
    (hb : digitValue? b = some y) (s : List Char) :
    decode ('%' :: a :: b :: s) = UInt8.ofNat (x * 16 + y) :: decode s := by
  rw [decode, ha, hb]

theorem decode_percent {s : List Char} (h : ¬StartsByte s) : decode ('%' :: s) = 0x25 :: decode s := by
  match s, h with
  | [], _ => rfl
  | [a], _ => rfl
  | a :: b :: r, h =>
    rw [decode]
    split
    · next x y ha hb => exact absurd ⟨a, b, x, y, r, rfl, ha, hb⟩ h
    · rfl

theorem decode_cons {c : Char} (hc : c ≠ '%') (s : List Char) :
    decode (c :: s) = String.utf8EncodeChar c ++ decode s := by
  rw [decode]
  rintro a b r rfl
  exact absurd rfl hc

/-- A text is read from its first character on, which may start a byte. -/
theorem decode_induction {motive : List Char → Prop} (nil : motive [])
    (byte : ∀ a b x y s, digitValue? a = some x → digitValue? b = some y → motive s →
      motive ('%' :: a :: b :: s))
    (percent : ∀ s, ¬StartsByte s → motive s → motive ('%' :: s))
    (char : ∀ c s, c ≠ '%' → motive s → motive (c :: s)) (s : List Char) : motive s := by
  induction hn : s.length using Nat.strongRecOn generalizing s with
  | ind n ih =>
    cases s with
    | nil => exact nil
    | cons c s =>
      have shorter : ∀ t : List Char, t.length ≤ s.length → motive t := fun t ht =>
        ih t.length (by simp only [List.length_cons] at hn; omega) t rfl
      by_cases hc : c = '%'
      · subst hc
        by_cases hs : StartsByte s
        · obtain ⟨a, b, x, y, r, rfl, ha, hb⟩ := hs
          exact byte a b x y r ha hb (shorter r (by simp only [List.length_cons]; omega))
        · exact percent s hs (shorter s (Nat.le_refl _))
      · exact char c s hc (shorter s (Nat.le_refl _))

/-- Nothing that is cut in two reads as a byte if the second part does not start with a digit. -/
theorem decode_append (s : List Char) {t : List Char} (ht : ∀ c ∈ t.head?, digitValue? c = none) :
    decode (s ++ t) = decode s ++ decode t := by
  induction s using decode_induction with
  | nil => rfl
  | byte a b x y s ha hb ih =>
    simp only [List.cons_append, decode_byte ha hb, ih]
  | percent s hs ih =>
    have hst : ¬StartsByte (s ++ t) := by
      rintro ⟨a, b, x, y, r, heq, ha, hb⟩
      match s, hs with
      | [], _ =>
        rw [List.nil_append] at heq
        subst heq
        simp [ht a rfl] at ha
      | [c], _ =>
        obtain ⟨rfl, rfl⟩ := List.cons.inj heq
        simp [ht b rfl] at hb
      | c :: d :: s, hs =>
        simp only [List.cons_append, List.cons.injEq] at heq
        obtain ⟨rfl, rfl, rfl⟩ := heq
        exact hs ⟨c, d, x, y, s, rfl, ha, hb⟩
    rw [List.cons_append, decode_percent hst, decode_percent hs, ih, List.cons_append]
  | char c s hc ih => rw [List.cons_append, decode_cons hc, decode_cons hc, ih, List.append_assoc]

theorem decode_encodeByte (b : UInt8) (s : List Char) :
    decode (encodeByte b ++ s) = b :: decode s := by
  have hb := b.toNat_lt
  have hhigh := digitValue?_upperDigit (n := b.toNat / 16) (by omega)
  have hlow := digitValue?_upperDigit (n := b.toNat % 16) (by omega)
  have hvalue : b.toNat / 16 * 16 + b.toNat % 16 = b.toNat := by omega
  rw [encodeByte]
  simp only [List.cons_append, List.nil_append]
  rw [decode_byte hhigh hlow, hvalue, UInt8.ofNat_toNat]

theorem decode_encodeBytes (bs : Bytes) (s : List Char) :
    decode (bs.flatMap encodeByte ++ s) = bs ++ decode s := by
  induction bs with
  | nil => rfl
  | cons b bs ih =>
    rw [List.flatMap_cons, List.append_assoc, decode_encodeByte, ih, List.cons_append]

structure KeepsBytes (keep : Char → Bool) : Prop where
  percent : keep '%' = true
  digit : ∀ c, (digitValue? c).isSome = true → keep c = true

variable {keep : Char → Bool}

theorem encode_cons (keep : Char → Bool) (c : Char) (s : List Char) :
    encode keep (c :: s) = encodeChar keep c ++ encode keep s :=
  List.flatMap_cons

theorem encodeChar_of_keep {c : Char} (hc : keep c = true) : encodeChar keep c = [c] := by
  rw [encodeChar, if_pos hc]

theorem encode_of_keep {s : List Char} (hs : ∀ c ∈ s, keep c = true) : encode keep s = s := by
  induction s with
  | nil => rfl
  | cons c s ih =>
    rw [encode_cons, encodeChar_of_keep (hs c List.mem_cons_self),
      ih fun d hd => hs d (List.mem_cons_of_mem c hd)]
    rfl

theorem encodeChar_eq_cons {c : Char} (hc : ¬keep c = true) :
    ∃ r, encodeChar keep c = '%' :: r := by
  rw [encodeChar, if_neg hc]
  cases hu : String.utf8EncodeChar c with
  | nil => exact absurd hu String.utf8EncodeChar_ne_nil
  | cons b bs => exact ⟨_, List.flatMap_cons⟩

theorem startsByte_of_encode {s : List Char} (h : StartsByte (encode keep s)) : StartsByte s := by
  have head {c a : Char} {t s : List Char} {x : Nat} (ha : digitValue? a = some x)
      (heq : encode keep (c :: s) = a :: t) : a = c ∧ t = encode keep s := by
    rw [encode_cons] at heq
    by_cases hc : keep c = true
    · rw [encodeChar_of_keep hc] at heq
      obtain ⟨hca, hst⟩ := List.cons.inj heq
      exact ⟨hca.symm, hst.symm⟩
    · obtain ⟨r, hr⟩ := encodeChar_eq_cons hc
      rw [hr] at heq
      obtain ⟨rfl, _⟩ := List.cons.inj heq
      have hpercent : digitValue? '%' = none := by decide
      rw [hpercent] at ha
      cases ha
  obtain ⟨a, b, x, y, r, heq, ha, hb⟩ := h
  match s with
  | [] => simp [encode] at heq
  | c :: s =>
    obtain ⟨rfl, hs⟩ := head ha heq
    match s with
    | [] => simp [encode] at hs
    | d :: s =>
      obtain ⟨rfl, _⟩ := head hb hs.symm
      exact ⟨a, b, x, y, s, rfl, ha, hb⟩

/-- An encoded text stands for the same bytes. -/
theorem decode_encode (hk : KeepsBytes keep) (s : List Char) :
    decode (encode keep s) = decode s := by
  induction s using decode_induction with
  | nil => rfl
  | byte a b x y s ha hb ih =>
    have hka := hk.digit a (by rw [ha]; rfl)
    have hkb := hk.digit b (by rw [hb]; rfl)
    simp only [encode_cons, encodeChar_of_keep hk.percent, encodeChar_of_keep hka,
      encodeChar_of_keep hkb, List.cons_append, List.nil_append, decode_byte ha hb, ih]
  | percent s hs ih =>
    have hes : ¬StartsByte (encode keep s) := fun h => hs (startsByte_of_encode h)
    rw [encode_cons, encodeChar_of_keep hk.percent, List.cons_append, List.nil_append,
      decode_percent hes, decode_percent hs, ih]
  | char c s hc ih =>
    rw [encode_cons, decode_cons hc, ← ih]
    by_cases hkc : keep c = true
    · rw [encodeChar_of_keep hkc]
      exact decode_cons hc _
    · rw [encodeChar, if_neg hkc, decode_encodeBytes]

theorem mem_encode {c : Char} {s : List Char} (h : c ∈ encode keep s) :
    (c ∈ s ∧ keep c = true) ∨ c = '%' ∨ (digitValue? c).isSome = true := by
  obtain ⟨d, hd, hc⟩ := List.mem_flatMap.1 h
  by_cases hkd : keep d = true
  · rw [encodeChar_of_keep hkd, List.mem_singleton] at hc
    subst hc
    exact .inl ⟨hd, hkd⟩
  · rw [encodeChar, if_neg hkd] at hc
    obtain ⟨b, _, hc⟩ := List.mem_flatMap.1 hc
    have hb := b.toNat_lt
    simp only [encodeByte, List.mem_cons, List.not_mem_nil, or_false] at hc
    rcases hc with rfl | rfl | rfl
    · exact .inr (.inl rfl)
    · exact .inr (.inr (by rw [digitValue?_upperDigit (by omega)]; rfl))
    · exact .inr (.inr (by rw [digitValue?_upperDigit (by omega)]; rfl))

theorem keep_of_mem_encode (hk : KeepsBytes keep) {c : Char} {s : List Char}
    (h : c ∈ encode keep s) : keep c = true := by
  rcases mem_encode h with ⟨_, hc⟩ | rfl | hc
  · exact hc
  · exact hk.percent
  · exact hk.digit c hc

end Percent
end TenantGate
