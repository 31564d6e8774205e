import TenantGate.Proofs.JsonReading
/-!
# What readers of texts take

Whatever is read as a text is one of its spellings.  The reader puts bytes together, and looks for
characters only when it has them all; as no escape stands for a part of a character, the bytes of a
character that are not written as an escape all stand for themselves, one after the other.
-/

namespace TenantGate
namespace Json

/-- The escapes of a character, without the backslash. -/
inductive Escapes : Char → Bytes → Prop
  | short {mark value : UInt8} (hm : shortEscape? mark = some value) :
      Escapes (Char.ofNat value.toNat) [mark]
  | numbered {c : Char} {d₁ d₂ d₃ d₄ : UInt8} (hc : IsHex c.toNat d₁ d₂ d₃ d₄) :
      Escapes c [0x75, d₁, d₂, d₃, d₄]
  | pair {c : Char} {d₁ d₂ d₃ d₄ e₁ e₂ e₃ e₄ : UInt8} (hc : 0x10000 ≤ c.toNat)
      (hd : IsHex (0xd800 + (c.toNat - 0x10000) / 0x400) d₁ d₂ d₃ d₄)
      (he : IsHex (0xdc00 + (c.toNat - 0x10000) % 0x400) e₁ e₂ e₃ e₄) :
      Escapes c [0x75, d₁, d₂, d₃, d₄, 0x5c, 0x75, e₁, e₂, e₃, e₄]

theorem Escapes.spells {c : Char} {e : Bytes} (h : Escapes c e) {cs : List Char} {s : Bytes}
    (hs : Spells cs s) : Spells (c :: cs) (0x5c :: (e ++ s)) := by
  cases h with
  | short hm => exact .short hm hs
  | numbered hc => exact .numbered hc hs
  | pair hc hd he => exact .pair hc hd he hs

theorem hexValue?_lt {b : UInt8} {n : Nat} (h : Bytes.hexValue? b = some n) : n < 16 := by
  simp only [Bytes.hexValue?, UInt8.le_iff_toNat_le, UInt8.reduceToNat] at h
  split at h
  · cases h
    omega
  · split at h
    · cases h
      omega
    · split at h
      · cases h
        omega
      · cases h

theorem IsHex.lt {n : Nat} {a b c d : UInt8} (h : IsHex n a b c d) : n < 0x10000 := by
  obtain ⟨w, x, y, z, hw, hx, hy, hz, rfl⟩ := h
  have hw := hexValue?_lt hw
  have hx := hexValue?_lt hx
  have hy := hexValue?_lt hy
  have hz := hexValue?_lt hz
  omega

theorem fourDigits_eq_ok {s r : Bytes} {n : Nat} (h : fourDigits s = .ok (n, r)) :
    ∃ a b c d, s = a :: b :: c :: d :: r ∧ IsHex n a b c d := by
  unfold fourDigits at h
  split at h
  · next a b c d s =>
    split at h
    · next w x y z hw hx hy hz =>
      obtain ⟨rfl, rfl⟩ := Prod.mk.inj (Except.ok.inj h)
      exact ⟨a, b, c, d, rfl, w, x, y, z, hw, hx, hy, hz, rfl⟩
    · simp [faultAt] at h
  · simp [faultAt] at h

theorem escapeMark_eq_ok {mark : UInt8} {s r : Bytes} (h : escapeMark mark s = .ok r) :
    s = mark :: r := by
  cases s with
  | nil => simp [escapeMark, faultAt] at h
  | cons b s =>
    rw [escapeMark] at h
    split at h
    · next hb =>
      cases h
      rw [hb]
    · simp [faultAt] at h

theorem toNat_ofNat {n : Nat} (h : n < 0xd800 ∨ 0xdfff < n ∧ n < 0x110000) :
    (Char.ofNat n).toNat = n := by
  have hvalid : n.isValidChar := h
  rw [Char.ofNat, dif_pos hvalid]
  rfl

theorem numberedChar_eq_ok {s e r : Bytes} (h : numberedChar s = .ok (e, r)) :
    ∃ c written, s = written ++ r ∧ Escapes c (0x75 :: written) ∧ e = String.utf8EncodeChar c := by
  obtain ⟨⟨n, s₁⟩, hn, hchoice⟩ := Result.bind_eq_ok.1 h
  obtain ⟨d₁, d₂, d₃, d₄, rfl, hd⟩ := fourDigits_eq_ok hn
  have hlt := hd.lt
  dsimp only at hchoice
  by_cases htrailing : isTrailing n = true
  · simp [htrailing, faultAt] at hchoice
  rw [if_neg htrailing] at hchoice
  by_cases hleading : isLeading n = true
  · rw [hleading, Bool.not_true, if_neg Bool.false_ne_true] at hchoice
    obtain ⟨s₂, h₂, hchoice⟩ := Result.bind_eq_ok.1 hchoice
    obtain ⟨s₃, h₃, hchoice⟩ := Result.bind_eq_ok.1 hchoice
    obtain ⟨⟨m, s₄⟩, hm, hlast⟩ := Result.bind_eq_ok.1 hchoice
    obtain rfl := escapeMark_eq_ok h₂
    obtain rfl := escapeMark_eq_ok h₃
    obtain ⟨e₁, e₂, e₃, e₄, rfl, he⟩ := fourDigits_eq_ok hm
    dsimp only at hlast
    by_cases hpair : isTrailing m = true
    · rw [hpair, Bool.not_true, if_neg Bool.false_ne_true] at hlast
      obtain ⟨rfl, rfl⟩ := Prod.mk.inj (Except.ok.inj hlast)
      simp only [isLeading, Bool.and_eq_true, decide_eq_true_eq] at hleading
      simp only [isTrailing, Bool.and_eq_true, decide_eq_true_eq] at hpair
      have hc : (Char.ofNat (0x10000 + (n - 0xd800) * 0x400 + (m - 0xdc00))).toNat
          = 0x10000 + (n - 0xd800) * 0x400 + (m - 0xdc00) := toNat_ofNat (by omega)
      refine ⟨_, [d₁, d₂, d₃, d₄, 0x5c, 0x75, e₁, e₂, e₃, e₄], rfl, .pair ?_ ?_ ?_, rfl⟩
      · rw [hc]
        omega
      · have hhigh : 0xd800 + (0x10000 + (n - 0xd800) * 0x400 + (m - 0xdc00) - 0x10000) / 0x400 = n := by
          omega
        rw [hc, hhigh]
        exact hd
      · have hlow : 0xdc00 + (0x10000 + (n - 0xd800) * 0x400 + (m - 0xdc00) - 0x10000) % 0x400 = m := by
          omega
        rw [hc, hlow]
        exact he
    · simp [hpair, faultAt] at hlast
  · simp only [hleading, Bool.not_false, if_true] at hchoice
    obtain ⟨rfl, rfl⟩ := Prod.mk.inj (Except.ok.inj hchoice)
    simp only [isLeading, Bool.and_eq_true, decide_eq_true_eq] at hleading
    simp only [isTrailing, Bool.and_eq_true, decide_eq_true_eq] at htrailing
    have hc : (Char.ofNat n).toNat = n := toNat_ofNat (by omega)
    exact ⟨_, [d₁, d₂, d₃, d₄], rfl, .numbered (hc.symm ▸ hd), rfl⟩

theorem readEscape_eq_ok {s e r : Bytes} (h : readEscape s = .ok (e, r)) :
    ∃ c written, s = written ++ r ∧ Escapes c written ∧ e = String.utf8EncodeChar c := by
  cases s with
  | nil => simp [readEscape, faultAt] at h
  | cons mark s =>
    rw [readEscape] at h
    split at h
    · next value hm =>
      obtain ⟨rfl, rfl⟩ := Prod.mk.inj (Except.ok.inj h)
      exact ⟨_, [mark], rfl, .short hm, (utf8_of_shortEscape? hm).symm⟩
    · split at h
      · next hu =>
        obtain ⟨c, written, rfl, hc, he⟩ := numberedChar_eq_ok h
        exact ⟨c, mark :: written, rfl, hu ▸ hc, he⟩
      · simp [faultAt] at h

/-- A byte that stands for itself between quotes. -/
def IsRaw (b : UInt8) : Prop := b ≠ 0x22 ∧ b ≠ 0x5c ∧ ¬b < 0x20

/-- The bytes that stand between quotes, and those that they stand for. -/
inductive Gives : Bytes → Bytes → Prop
  | nil : Gives [] []
  | raw {b : UInt8} {s o : Bytes} (hb : IsRaw b) (h : Gives s o) : Gives (b :: s) (b :: o)
  | escape {c : Char} {e s o : Bytes} (he : Escapes c e) (h : Gives s o) :
      Gives (0x5c :: (e ++ s)) (String.utf8EncodeChar c ++ o)

theorem textBytes_eq_ok {acc s b rest : Bytes} (h : textBytes acc s = .ok (b, rest)) :
    ∃ s' o, s = s' ++ 0x22 :: rest ∧ b = acc.reverse ++ o ∧ Gives s' o := by
  fun_induction textBytes acc s with
  | case1 => simp [faultAt] at h
  | case2 acc s =>
    obtain ⟨rfl, rfl⟩ := Prod.mk.inj (Except.ok.inj h)
    exact ⟨[], [], rfl, (List.append_nil _).symm, .nil⟩
  | case3 => cases h
  | case4 acc s e r he _ _ ih =>
    obtain ⟨c, written, rfl, hc, rfl⟩ := readEscape_eq_ok he
    obtain ⟨s', o, rfl, rfl, hgives⟩ := ih h
    exact ⟨_, _, by simp, by simp, .escape hc hgives⟩
  | case5 => simp [faultAt] at h
  | case6 acc b s hq he hc ih =>
    obtain ⟨s', o, rfl, rfl, hgives⟩ := ih h
    exact ⟨b :: s', b :: o, rfl, by simp, .raw ⟨hq, he, hc⟩ hgives⟩

/-- A byte that is given is raw, or it is the first one of an escape. -/
theorem Gives.cons_cases {s o : Bytes} {b : UInt8} (h : Gives s (b :: o)) :
    (∃ s', s = b :: s' ∧ IsRaw b ∧ Gives s' o) ∨
      ∃ c e s' o', s = 0x5c :: (e ++ s') ∧ Escapes c e ∧ Gives s' o' ∧
        b :: o = String.utf8EncodeChar c ++ o' := by
  generalize hgiven : b :: o = given at h
  cases h with
  | nil => cases hgiven
  | raw hb h =>
    obtain ⟨rfl, rfl⟩ := List.cons.inj hgiven
    exact .inl ⟨_, rfl, hb, h⟩
  | escape he h => exact .inr ⟨_, _, _, _, rfl, he, h, rfl⟩

theorem Gives.of_tail {tail o s : Bytes} (htail : ∀ b ∈ tail, ¬b.IsUTF8FirstByte)
    (h : Gives s (tail ++ o)) : ∃ s', s = tail ++ s' ∧ Gives s' o := by
  induction tail generalizing s with
  | nil => exact ⟨s, rfl, h⟩
  | cons b tail ih =>
    rw [List.cons_append] at h
    rcases h.cons_cases with ⟨s', rfl, _, h⟩ | ⟨c, e, s', o', rfl, _, _, heq⟩
    · obtain ⟨s'', rfl, hrest⟩ := ih (fun b hb => htail b (List.mem_cons_of_mem _ hb)) h
      exact ⟨s'', rfl, hrest⟩
    · obtain ⟨first, rest, hfirst, hstarts, _⟩ := Bytes.utf8_eq_cons c
      rw [hfirst, List.cons_append] at heq
      obtain ⟨rfl, _⟩ := List.cons.inj heq
      exact absurd hstarts (htail b List.mem_cons_self)

theorem isPlain_of_isRaw {c : Char} {b : UInt8} {tail : Bytes}
    (hc : String.utf8EncodeChar c = b :: tail) (hb : IsRaw b) :
    0x20 ≤ c.toNat ∧ c ≠ '"' ∧ c ≠ '\\' := by
  obtain ⟨hquote, hbackslash, hcontrol⟩ := hb
  refine ⟨Nat.le_of_not_lt fun hlt => hcontrol ?_, ?_, ?_⟩
  · rw [Bytes.utf8_of_lt (by omega)] at hc
    obtain ⟨rfl, _⟩ := List.cons.inj hc
    rw [UInt8.lt_iff_toNat_lt, UInt8.toNat_ofNat']
    simp only [UInt8.reduceToNat]
    omega
  · rintro rfl
    obtain ⟨rfl, _⟩ := List.cons.inj hc
    exact hquote rfl
  · rintro rfl
    obtain ⟨rfl, _⟩ := List.cons.inj hc
    exact hbackslash rfl

theorem Gives.spells {cs : List Char} {s : Bytes} (h : Gives s (cs.flatMap String.utf8EncodeChar)) :
    Spells cs s := by
  induction cs generalizing s with
  | nil =>
    generalize hgiven : ([] : List Char).flatMap String.utf8EncodeChar = given at h
    cases h with
    | nil => exact .nil
    | raw => cases hgiven
    | escape =>
      exact absurd (List.append_eq_nil_iff.1 hgiven.symm).1 String.utf8EncodeChar_ne_nil
  | cons c cs ih =>
    obtain ⟨b, tail, hbytes, _, htail⟩ := Bytes.utf8_eq_cons c
    rw [List.flatMap_cons, hbytes, List.cons_append] at h
    rcases h.cons_cases with ⟨s', rfl, hb, h⟩ | ⟨c', e, s', o', rfl, he, h, heq⟩
    · obtain ⟨hcontrol, hquote, hbackslash⟩ := isPlain_of_isRaw hbytes hb
      obtain ⟨s'', rfl, hrest⟩ := h.of_tail htail
      have hplain := Spells.plain hcontrol hquote hbackslash (ih hrest)
      rw [hbytes, List.cons_append] at hplain
      exact hplain
    · rw [← List.cons_append, ← hbytes] at heq
      obtain ⟨rfl, rfl⟩ := Bytes.utf8_append_inj heq
      exact he.spells (ih h)

/-- What is read up to a quote is a spelling of the text. -/
theorem readText_eq_ok {t : String} {s r : Bytes} (h : readText s = .ok (t, r)) :
    ∃ s', s = s' ++ 0x22 :: r ∧ Spells t.toList s' := by
  obtain ⟨⟨b, rest⟩, hbytes, h⟩ := Result.bind_eq_ok.1 h
  dsimp only at h
  split at h
  · next t' ht =>
    obtain ⟨rfl, rfl⟩ := Prod.mk.inj (Except.ok.inj h)
    obtain ⟨s', o, rfl, hb, hgives⟩ := textBytes_eq_ok hbytes
    have hchars : o = t'.toList.flatMap String.utf8EncodeChar := by
      rw [← Bytes.ofText_eq_flatMap, Bytes.ofText_of_text? ht, hb]
      rfl
    exact ⟨s', rfl, (hchars ▸ hgives).spells⟩
  · cases h

end Json
end TenantGate
