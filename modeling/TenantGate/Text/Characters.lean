/-!
# Characters in ASCII

Lower case and tests of characters are decided in ASCII.  Beyond it, a character is its own lower
case.
-/

namespace TenantGate
namespace Text

theorem forall_ascii {P : Char → Prop} (h : ∀ n < 128, P (Char.ofNat n)) {c : Char}
    (hc : c.toNat < 128) : P c := by
  have hP := h c.toNat hc
  rw [Char.ofNat_toNat] at hP
  exact hP

theorem ne_of_test {test : Char → Bool} {c d : Char} (hc : test c = true) (hd : test d = false) :
    c ≠ d := by
  rintro rfl
  rw [hc] at hd
  cases hd

theorem bne_of_not_mem {d : Char} {s : List Char} (h : d ∉ s) : ∀ c ∈ s, (c != d) = true := by
  intro c hc
  have hne : c ≠ d := fun heq => h (heq ▸ hc)
  simpa using hne

theorem forall_mem_intercalate {P : Char → Prop} {sep : List Char} (hsep : ∀ c ∈ sep, P c)
    {parts : List (List Char)} (hparts : ∀ x ∈ parts, ∀ c ∈ x, P c) :
    ∀ c ∈ sep.intercalate parts, P c := by
  induction parts with
  | nil => simp
  | cons x rest ih =>
    have hx := hparts x List.mem_cons_self
    cases rest with
    | nil => simpa using hx
    | cons y rest =>
      have hrest := ih fun z hz => hparts z (List.mem_cons_of_mem x hz)
      rw [List.intercalate_cons_cons]
      simp only [List.forall_mem_append]
      exact ⟨⟨hx, hsep⟩, hrest⟩

theorem forall_mem_toDigits {P : Char → Prop} (hP : ∀ d, P (Nat.digitChar d)) (base n : Nat) :
    ∀ c ∈ Nat.toDigits base n, P c := by
  have digits (fuel n : Nat) (s : List Char) (hs : ∀ c ∈ s, P c) :
      ∀ c ∈ Nat.toDigitsCore base fuel n s, P c := by
    induction fuel generalizing n s with
    | zero => exact hs
    | succ fuel ih =>
      have hcons := List.forall_mem_cons.2 ⟨hP (n % base), hs⟩
      rw [Nat.toDigitsCore]
      split
      · exact hcons
      · exact ih _ _ hcons
  exact digits _ n [] (by simp)

theorem forall_digitChar {P : Char → Prop} (hdigits : ∀ d < 16, P (Nat.digitChar d)) (hstar : P '*')
    (d : Nat) : P (Nat.digitChar d) := by
  by_cases hd : d < 16
  · exact hdigits d hd
  · rw [Nat.digitChar_eq_star.2 (by omega)]
    exact hstar

theorem toLower_of_le {c : Char} (h : 128 ≤ c.toNat) : c.toLower = c := by
  unfold Char.toLower
  split
  · next hc =>
    have hz : c.toNat ≤ 90 := UInt32.le_iff_toNat_le.1 hc.2
    omega
  · rfl

theorem toLower_toLower (c : Char) : c.toLower.toLower = c.toLower := by
  by_cases hlt : c.toNat < 128
  · exact forall_ascii (P := fun c => c.toLower.toLower = c.toLower) (by decide) hlt
  · have hsame : c.toLower = c := toLower_of_le (by omega)
    rw [hsame, hsame]

/-- What holds of all characters in ASCII whose lower case is given holds of all characters. -/
theorem forall_toLower {d : Char} (hd : d.toNat < 128) {P : Char → Prop}
    (h : ∀ n < 128, (Char.ofNat n).toLower = d → P (Char.ofNat n)) {c : Char} (hc : c.toLower = d) :
    P c := by
  by_cases hlt : c.toNat < 128
  · exact forall_ascii (P := fun c => c.toLower = d → P c) h hlt hc
  · rw [toLower_of_le (by omega)] at hc
    subst hc
    exact absurd hd hlt

theorem toList_toLower (s : String) : s.toLower.toList = s.toList.map Char.toLower := by
  change (s.map Char.toLower).toList = s.toList.map Char.toLower
  rw [String.toList_map]

end Text
end TenantGate
