import Mathlib.Data.List.TakeWhile
import TenantGate.Proofs.JsonValues
/-!
# Where numbers end

Whatever is read or passed over as a number is a numeral, and what is read is what the numeral
stands for without all that follows it.
-/

namespace TenantGate
namespace Json

theorem isDigit_of_mem_takeWhile {s : Bytes} : ∀ b ∈ s.takeWhile isDigit, isDigit b = true :=
  fun _ hb => List.mem_takeWhile_imp hb

theorem head_dropWhile_isDigit (s : Bytes) :
    ∀ b ∈ (s.dropWhile isDigit).head?, isDigit b = false := by
  intro b hb
  have hstop := List.head?_dropWhile_not isDigit s
  rw [Option.mem_def.1 hb] at hstop
  exact hstop

theorem exists_digits {s : Bytes} (h : s.takeWhile isDigit ≠ []) :
    ∃ d : Digits, d.bytes = s.takeWhile isDigit ∧ s = d.bytes ++ s.dropWhile isDigit :=
  ⟨⟨s.takeWhile isDigit, h, isDigit_of_mem_takeWhile⟩, rfl, List.takeWhile_append_dropWhile.symm⟩

theorem exists_digits_cons {b : UInt8} (hb : isDigit b = true) (s : Bytes) :
    ∃ d : Digits, d.bytes = b :: s.takeWhile isDigit ∧ b :: s = d.bytes ++ s.dropWhile isDigit := by
  obtain ⟨d, hd, hs⟩ := exists_digits (s := b :: s) (by simp [hb])
  exact ⟨d, by simpa [hb] using hd, by simpa [hb] using hs⟩

theorem exists_upper {b : UInt8} (hb : b = 0x65 ∨ b = 0x45) :
    ∃ upper : Bool, (if upper then 0x45 else 0x65) = b := by
  rcases hb with rfl | rfl
  · exact ⟨false, rfl⟩
  · exact ⟨true, rfl⟩

theorem gatherExponent_all {e : Nat} {ds : Bytes} (h : ∀ b ∈ ds, isDigit b = true) :
    (∃ k, gatherExponent e ds = .ok (k, [])) ∨
      ∃ u, gatherExponent e ds = .error u ∧ ∀ b ∈ u, isDigit b = true := by
  induction ds generalizing e with
  | nil => exact .inl ⟨e, rfl⟩
  | cons d ds ih =>
    have hds : ∀ b ∈ ds, isDigit b = true := fun b hb => h b (List.mem_cons_of_mem d hb)
    rw [gatherExponent, if_pos (h d List.mem_cons_self)]
    split
    · exact ih hds
    · exact .inr ⟨ds, rfl, hds⟩

theorem finishDouble_eq_ok {positive : Bool} {n : Nat} {e : Int} {s r : Bytes} {x : Number}
    (h : finishDouble positive n e s = .ok (x, r)) :
    r = s ∧ ∀ t, finishDouble positive n e t = .ok (x, t) := by
  unfold finishDouble at h ⊢
  split at h
  · cases h
    exact ⟨rfl, fun _ => rfl⟩
  · simp [faultAt] at h

section Stages

variable {positive : Bool} {n surplus : Nat} {e : Int} {s r : Bytes} {x : Number}

theorem exists_exponentDigits {up : Bool} (h : exponentDigits positive n e up s = .ok (x, r)) :
    ∃ d : Digits, s = d.bytes ++ r ∧ exponentDigits positive n e up d.bytes = .ok (x, []) := by
  cases s with
  | nil => simp [exponentDigits, faultAt] at h
  | cons b s =>
    rw [exponentDigits] at h
    split at h
    case isFalse => simp [faultAt] at h
    case isTrue hb =>
    obtain ⟨d, hd, hs⟩ := exists_digits_cons hb s
    have split := gatherExponent_append (head_dropWhile_isDigit s) (digitValue b)
      (s.takeWhile isDigit)
    rw [List.takeWhile_append_dropWhile] at split
    rw [split] at h
    rcases gatherExponent_all (e := digitValue b) (isDigit_of_mem_takeWhile (s := s)) with
      ⟨k, hk⟩ | ⟨u, hu, hdigits⟩
    · rw [hk] at h
      obtain ⟨rfl, hfinish⟩ := finishDouble_eq_ok h
      refine ⟨d, hs, ?_⟩
      rw [hd, exponentDigits, if_pos hb, hk]
      exact hfinish []
    · rw [hu] at h
      dsimp only at h
      split at h
      · simp [faultAt] at h
      · next hzero =>
        rw [dropWhile_digits hdigits (head_dropWhile_isDigit s)] at h
        cases h
        refine ⟨d, hs, ?_⟩
        rw [hd, exponentDigits, if_pos hb, hu]
        simp only [if_neg hzero, List.dropWhile_eq_nil_iff.2 hdigits]

theorem exists_exponent {b : UInt8} (hb : b = 0x65 ∨ b = 0x45)
    (h : readExponent positive n e s = .ok (x, r)) :
    ∃ (p : Exponent) (t : Bytes), p.bytes = b :: t ∧ s = t ++ r ∧
      readExponent positive n e t = .ok (x, []) := by
  obtain ⟨upper, hupper⟩ := exists_upper hb
  cases s with
  | nil => simp [readExponent, faultAt] at h
  | cons c s =>
    by_cases hplus : c = 0x2b
    · subst hplus
      obtain ⟨d, rfl, hd⟩ := exists_exponentDigits
        (show exponentDigits positive n e true s = .ok (x, r) from h)
      exact ⟨⟨upper, some false, d⟩, 0x2b :: d.bytes, by simp [Exponent.bytes, hupper], rfl, hd⟩
    · by_cases hminus : c = 0x2d
      · subst hminus
        obtain ⟨d, rfl, hd⟩ := exists_exponentDigits
          (show exponentDigits positive n e false s = .ok (x, r) from h)
        exact ⟨⟨upper, some true, d⟩, 0x2d :: d.bytes, by simp [Exponent.bytes, hupper], rfl, hd⟩
      · rw [readExponent_unsigned positive n e hplus hminus] at h
        obtain ⟨d, hs, hd⟩ := exists_exponentDigits h
        obtain ⟨c', ds, hc, _⟩ := d.exists_cons
        obtain ⟨rfl, _⟩ : c = c' ∧ s = ds ++ r := by simpa [hc] using hs
        refine ⟨⟨upper, none, d⟩, d.bytes, by simp [Exponent.bytes, hupper], hs, ?_⟩
        rw [hc] at hd ⊢
        rw [readExponent_unsigned positive n e hplus hminus]
        exact hd

theorem exists_power (f : Option Digits) (k : Numeral)
    (h : choosePower (readExponent positive n e) (finishDouble positive n e) s = .ok (x, r)) :
    ∃ o, s = ({ k with fraction := f, exponent := o } : Numeral).power ++ r ∧
      choosePower (readExponent positive n e) (finishDouble positive n e)
        ({ k with fraction := f, exponent := o } : Numeral).power = .ok (x, []) := by
  have ended (hfinish : finishDouble positive n e s = .ok (x, r)) :
      ∃ o, s = ({ k with fraction := f, exponent := o } : Numeral).power ++ r ∧
        choosePower (readExponent positive n e) (finishDouble positive n e)
          ({ k with fraction := f, exponent := o } : Numeral).power = .ok (x, []) := by
    obtain ⟨rfl, hall⟩ := finishDouble_eq_ok hfinish
    exact ⟨none, rfl, hall []⟩
  cases s with
  | nil => exact ended h
  | cons b s =>
    rw [choosePower_cons] at h
    split at h
    · next hb =>
      obtain ⟨p, t, hp, rfl, hread⟩ := exists_exponent hb h
      refine ⟨some p, congrArg (· ++ r) hp.symm, ?_⟩
      simp only [Numeral.power]
      rw [hp, choosePower_cons, if_pos hb]
      exact hread
    · exact ended h

theorem exists_fraction (k : Numeral) (h : readFraction positive n surplus s = .ok (x, r)) :
    ∃ d o, s = d.bytes ++ (({ k with fraction := some d, exponent := o } : Numeral).power ++ r) ∧
      readFraction positive n surplus
        (d.bytes ++ ({ k with fraction := some d, exponent := o } : Numeral).power)
          = .ok (x, []) := by
  unfold readFraction at h
  dsimp only at h
  split at h
  · split at h <;> simp [faultAt, faultOn] at h
  · next hne =>
    obtain ⟨d, hd, hs⟩ := exists_digits (s := s) (by simpa using hne)
    obtain ⟨o, hpower, hread⟩ := exists_power (some d) k h
    refine ⟨d, o, by rw [← hpower, ← hs], ?_⟩
    have hhead := Numeral.power_head { k with fraction := some d, exponent := o }
      (ends_of_blank blank_nil)
    rw [List.append_nil] at hhead
    have hstop := fun b hb => (hhead b hb).1
    unfold readFraction
    rw [takeWhile_digits d.all_digits hstop, dropWhile_digits d.all_digits hstop]
    dsimp only
    rw [if_neg (by simpa using d.ne_nil), hd]
    exact hread

theorem exists_tail (k : Numeral) (h : readAfterDigits positive n surplus s = .ok (x, r)) :
    ∃ f o, s = ({ k with fraction := f, exponent := o } : Numeral).tail ++ r ∧
      readAfterDigits positive n surplus
        ({ k with fraction := f, exponent := o } : Numeral).tail = .ok (x, []) := by
  have ended (t : Bytes) (hend : (if surplus ≠ 0 then finishDouble positive n surplus t
      else if positive then .ok (.unsigned n, t)
      else if n = 0 ∨ 0x8000000000000000 < n then .ok (.double (signed false n.toUInt64.toFloat), t)
      else .ok (.negative n, t)) = .ok (x, r)) :
      t = r ∧ readAfterDigits positive n surplus [] = .ok (x, []) := by
    unfold readAfterDigits
    dsimp only
    split at hend
    · next hs =>
      obtain ⟨rfl, hfinish⟩ := finishDouble_eq_ok hend
      exact ⟨rfl, by rw [if_pos hs, hfinish]⟩
    · next hs =>
      rw [if_neg hs]
      repeat' split at hend
      all_goals
        cases hend
        simp_all
  cases s with
  | nil =>
    obtain ⟨rfl, hread⟩ := ended [] h
    exact ⟨none, none, rfl, hread⟩
  | cons b s =>
    rw [readAfterDigits_cons] at h
    split at h
    · next hpoint =>
      obtain ⟨d, o, hs, hread⟩ := exists_fraction k h
      refine ⟨some d, o, ?_, ?_⟩
      · rw [Numeral.tail_eq, hs, hpoint]
        simp
      · rw [Numeral.tail_eq]
        exact hread
    · split at h
      · next hletter =>
        obtain ⟨p, t, hp, rfl, hread⟩ := exists_exponent hletter h
        refine ⟨none, some p, congrArg (· ++ r) hp.symm, ?_⟩
        simp only [Numeral.tail, List.nil_append]
        rw [hp, readAfterDigits_cons, if_neg ‹_›, if_pos hletter]
        exact hread
      · obtain ⟨rfl, hread⟩ := ended (b :: s) h
        exact ⟨none, none, rfl, hread⟩

end Stages

theorem readNumber_eq_ok {positive : Bool} {s r : Bytes} {x : Number}
    (h : readNumber positive s = .ok (x, r)) :
    ∃ (whole : Digits) (t : Bytes), (whole.bytes.head? = some 0x30 → whole.bytes.length = 1) ∧
      s = whole.bytes ++ t ∧
      readAfterDigits positive (gather 0 whole.bytes).1 (gather 0 whole.bytes).2 t = .ok (x, r) := by
  cases s with
  | nil => simp [readNumber, faultAt] at h
  | cons d s =>
    by_cases hzero : d = 0x30
    · subst hzero
      rw [readNumber] at h
      split at h
      · simp [faultOn] at h
      · exact ⟨⟨[0x30], by simp, List.forall_mem_singleton.2 rfl⟩, s, fun _ => rfl, rfl, h⟩
    · rw [readNumber_cons positive hzero] at h
      split at h
      · next hd =>
        obtain ⟨whole, hwhole, hs⟩ := exists_digits_cons hd s
        refine ⟨whole, s.dropWhile isDigit, ?_, hs, ?_⟩
        · intro hhead
          rw [hwhole] at hhead
          exact absurd (Option.some.inj hhead) hzero
        · rw [hwhole, gather_zero]
          exact h
      · simp [faultAt] at h

/-- Whatever is read as a number is a numeral, and all that is known of it. -/
theorem exists_numeral {positive : Bool} {s r : Bytes} {x : Number}
    (h : readNumber positive s = .ok (x, r)) :
    ∃ n : Numeral, n.negative = !positive ∧ s = n.magnitude ++ r ∧ n.number? = some x := by
  obtain ⟨whole, t, hwhole, rfl, hafter⟩ := readNumber_eq_ok h
  obtain ⟨f, o, rfl, hread⟩ := exists_tail
    { negative := !positive, whole := whole, no_leading_zero := hwhole } hafter
  let n : Numeral :=
    { negative := !positive, whole := whole, no_leading_zero := hwhole, fraction := f, exponent := o }
  refine ⟨n, rfl, by simp [n, Numeral.magnitude, Numeral.tail], ?_⟩
  have hhead := n.tail_head (ends_of_blank blank_nil)
  rw [List.append_nil] at hhead
  have hnumber : readNumber (!n.negative) n.magnitude = .ok (x, []) := by
    rw [Numeral.magnitude, readNumber_whole n _ hhead, Bool.not_not]
    exact hread
  rw [Numeral.number?, hnumber]

section Skipped

variable {s r : Bytes}

theorem skipExponent_eq_ok {b : UInt8} (hb : b = 0x65 ∨ b = 0x45) (h : skipExponent s = .ok r) :
    ∃ p : Exponent, b :: s = p.bytes ++ r := by
  obtain ⟨upper, hupper⟩ := exists_upper hb
  unfold skipExponent at h
  dsimp only at h
  split at h
  · simp [faultAt] at h
  · next d t hsign =>
    split at h
    case isFalse => simp [faultAt] at h
    case isTrue hd =>
    obtain ⟨ds, _, hs⟩ := exists_digits_cons hd t
    cases h
    rw [hs] at hsign
    split at hsign
    · exact ⟨⟨upper, some false, ds⟩, by simp [Exponent.bytes, hupper, hsign]⟩
    · exact ⟨⟨upper, some true, ds⟩, by simp [Exponent.bytes, hupper, hsign]⟩
    · exact ⟨⟨upper, none, ds⟩, by simp [Exponent.bytes, hupper, hsign]⟩

theorem skipAfterFraction_eq_ok (f : Option Digits) (k : Numeral)
    (h : skipAfterFraction s = .ok r) :
    ∃ o, s = ({ k with fraction := f, exponent := o } : Numeral).power ++ r := by
  unfold skipAfterFraction at h
  split at h
  · obtain ⟨p, hp⟩ := skipExponent_eq_ok (.inl rfl) h
    exact ⟨some p, hp⟩
  · obtain ⟨p, hp⟩ := skipExponent_eq_ok (.inr rfl) h
    exact ⟨some p, hp⟩
  · cases h
    exact ⟨none, rfl⟩

theorem skipAfterDigits_eq_ok (k : Numeral) (h : skipAfterDigits s = .ok r) :
    ∃ f o, s = ({ k with fraction := f, exponent := o } : Numeral).tail ++ r := by
  unfold skipAfterDigits at h
  split at h
  · next s =>
    unfold skipFraction at h
    split at h
    · simp [faultOn] at h
    · next hne =>
      obtain ⟨d, _, hs⟩ := exists_digits (s := s) (by simpa using hne)
      obtain ⟨o, ho⟩ := skipAfterFraction_eq_ok (some d) k h
      refine ⟨some d, o, ?_⟩
      rw [Numeral.tail_eq, List.append_assoc, ← ho]
      simpa using hs
  · obtain ⟨o, ho⟩ := skipAfterFraction_eq_ok none k h
    exact ⟨none, o, ho⟩

/-- Whatever is passed over as a number is a numeral. -/
theorem skipNumber_eq_ok (negative : Bool) (h : skipNumber s = .ok r) :
    ∃ n : Numeral, n.negative = negative ∧ s = n.magnitude ++ r := by
  have whole (d : Digits) (hd : d.bytes.head? = some 0x30 → d.bytes.length = 1) {t : Bytes}
      (ht : skipAfterDigits t = .ok r) :
      ∃ n : Numeral, n.negative = negative ∧ d.bytes ++ t = n.magnitude ++ r := by
    obtain ⟨f, o, rfl⟩ := skipAfterDigits_eq_ok
      { negative := negative, whole := d, no_leading_zero := hd } ht
    exact ⟨{ negative := negative, whole := d, no_leading_zero := hd, fraction := f, exponent := o },
      rfl, by simp [Numeral.magnitude, Numeral.tail]⟩
  unfold skipNumber at h
  split at h
  · simp [faultAt] at h
  · split at h
    · simp [faultOn] at h
    · exact whole ⟨[0x30], by simp, List.forall_mem_singleton.2 rfl⟩ (fun _ => rfl) h
  · next d s hzero =>
    split at h
    · next hd =>
      obtain ⟨ds, hds, hs⟩ := exists_digits_cons hd s
      rw [hs]
      refine whole ds (fun hhead => ?_) h
      rw [hds] at hhead
      obtain rfl := Option.some.inj hhead
      exact absurd rfl hzero
    · simp [faultAt] at h

end Skipped

end Json
end TenantGate
