import Mathlib.Data.List.Infix
import Mathlib.Tactic.Common
import TenantGate.Text.Parts
/-!
# Marks that stand in a text once

If no end of a mark is a start of it, places of the mark do not overlap.  Then a text has two parts
around the mark exactly if the mark stands at one place of it.
-/

namespace TenantGate
namespace Text

variable {mark s before rest : List Char}

/-- The mark stands at the end of `before`, and nowhere earlier in the text. -/
def StandsFirst (mark before rest : List Char) : Prop :=
  ∀ b a, before ++ mark ++ rest = b ++ mark ++ a → before.length ≤ b.length

/-- The mark stands at the end of `before`, and nowhere else in the text. -/
structure StandsOnce (mark s before rest : List Char) : Prop where
  stands : s = before ++ mark ++ rest
  once : ∀ b a, s = b ++ mark ++ a → b = before

theorem exists_standsFirst (h : mark <:+: s) :
    ∃ before rest, s = before ++ mark ++ rest ∧ StandsFirst mark before rest := by
  induction s with
  | nil =>
    obtain ⟨b, a, hba⟩ := h
    have hempty : b = [] := by simp_all
    exact ⟨b, a, hba.symm, fun b' a' _ => by simp [hempty]⟩
  | cons c s ih =>
    by_cases hstart : mark <+: c :: s
    · obtain ⟨a, ha⟩ := hstart
      exact ⟨[], a, ha.symm, fun b a _ => Nat.zero_le _⟩
    · have hlater : mark <:+: s := (List.infix_cons_iff.1 h).resolve_left hstart
      obtain ⟨before, rest, rfl, hfirst⟩ := ih hlater
      refine ⟨c :: before, rest, rfl, fun b a heq => ?_⟩
      cases b with
      | nil => exact absurd ⟨a, heq.symm⟩ hstart
      | cons d b => exact Nat.succ_le_succ (hfirst b a (List.cons.inj heq).2)

theorem StandsFirst.of_cons {c : Char} (h : StandsFirst mark (c :: before) rest) :
    ¬mark <+: c :: (before ++ mark ++ rest) ∧ StandsFirst mark before rest := by
  constructor
  · rintro ⟨a, ha⟩
    exact absurd (h [] a ha.symm) (Nat.not_succ_le_zero _)
  · intro b a heq
    exact Nat.le_of_succ_le_succ (h (c :: b) a (congrArg (c :: ·) heq))

theorem StandsOnce.standsFirst (h : StandsOnce mark s before rest) : StandsFirst mark before rest := by
  intro b a heq
  rw [h.once b a (h.stands.trans heq)]

theorem StandsOnce.absent_after (hne : mark ≠ []) (h : StandsOnce mark s before rest) :
    ¬mark <:+: rest := by
  rintro ⟨b, a, rfl⟩
  have hsame : before ++ mark ++ b = before := h.once _ a (by simp [h.stands])
  rw [List.append_assoc, List.append_right_eq_self, List.append_eq_nil_iff] at hsame
  exact hne hsame.1

/-- No end of a mark is a start of it. -/
def Unbordered (mark : List Char) : Prop := ∀ n < mark.length, 0 < n → ¬mark.drop n <+: mark

instance (mark : List Char) : Decidable (Unbordered mark) :=
  inferInstanceAs (Decidable (∀ n < mark.length, 0 < n → ¬mark.drop n <+: mark))

/-- A later place of the mark starts after the end of an earlier one. -/
theorem Unbordered.apart {b a b' a' : List Char} (hmark : Unbordered mark)
    (heq : b ++ mark ++ a = b' ++ mark ++ a') (hlt : b.length < b'.length) :
    b.length + mark.length ≤ b'.length := by
  by_contra hover
  have hshort : b'.length - b.length < mark.length := by omega
  have hends : mark.drop (b'.length - b.length) ++ a = mark ++ a' := by
    have hdrop := congrArg (List.drop b'.length) heq
    rw [List.append_assoc, List.append_assoc, List.drop_left, List.drop_append,
      List.drop_eq_nil_of_le hlt.le, List.nil_append,
      List.drop_append_of_le_length hshort.le] at hdrop
    exact hdrop
  have hborder : mark.drop (b'.length - b.length) <+: mark :=
    List.prefix_of_prefix_length_le ⟨a, hends⟩ ⟨a', rfl⟩ (by simp)
  exact hmark _ hshort (by omega) hborder

theorem StandsFirst.standsOnce (hmark : Unbordered mark) (hfirst : StandsFirst mark before rest)
    (hrest : ¬mark <:+: rest) : StandsOnce mark (before ++ mark ++ rest) before rest := by
  refine ⟨rfl, fun b a heq => ?_⟩
  rcases Nat.lt_or_eq_of_le (hfirst b a heq) with hlt | hlength
  · have hapart := hmark.apart heq hlt
    obtain ⟨x, rfl⟩ : before ++ mark <+: b :=
      List.prefix_of_prefix_length_le ⟨rest, rfl⟩ ⟨mark ++ a, by simp [heq]⟩ (by simpa)
    have hinside : rest = x ++ mark ++ a := by simpa using heq
    exact absurd ⟨x, a, hinside.symm⟩ hrest
  · rw [List.append_assoc, List.append_assoc] at heq
    exact (List.append_inj_left heq hlength).symm

theorem partsFrom_append (mark s t : List Char) :
    partsFrom mark s.length (s ++ t) = partsAround mark t := by
  induction s with
  | nil => rfl
  | cons c s ih => exact ih

theorem partsAround_mark (hne : mark ≠ []) (s : List Char) :
    partsAround mark (mark ++ s) = [] :: partsAround mark s := by
  cases mark with
  | nil => exact absurd rfl hne
  | cons c m =>
    have hstart : (c :: m).isPrefixOf (c :: (m ++ s)) = true :=
      List.isPrefixOf_iff_prefix.2 ⟨s, rfl⟩
    rw [partsAround, List.cons_append, partsFrom, if_pos hstart]
    exact congrArg ([] :: ·) (partsFrom_append (c :: m) m s)

theorem partsAround_cons {c : Char} (h : ¬mark <+: c :: s) :
    partsAround mark (c :: s) = (partsAround mark s).modifyHead (c :: ·) := by
  rw [partsAround, partsFrom, if_neg fun hp => h (List.isPrefixOf_iff_prefix.1 hp), partsAround]

theorem partsAround_of_absent (h : ¬mark <:+: s) : partsAround mark s = [s] := by
  induction s with
  | nil => rfl
  | cons c s ih =>
    rw [List.infix_cons_iff, not_or] at h
    rw [partsAround_cons h.1, ih h.2]
    rfl

theorem partsAround_of_standsFirst (hne : mark ≠ []) (hfirst : StandsFirst mark before rest) :
    partsAround mark (before ++ mark ++ rest) = before :: partsAround mark rest := by
  induction before with
  | nil => exact partsAround_mark hne rest
  | cons c before ih =>
    obtain ⟨hstart, hlater⟩ := hfirst.of_cons
    rw [List.cons_append, List.cons_append, partsAround_cons hstart, ih hlater]
    rfl

theorem partsAround_ne_nil (hne : mark ≠ []) (s : List Char) : partsAround mark s ≠ [] := by
  by_cases h : mark <:+: s
  · obtain ⟨before, rest, rfl, hfirst⟩ := exists_standsFirst h
    rw [partsAround_of_standsFirst hne hfirst]
    exact List.cons_ne_nil _ _
  · rw [partsAround_of_absent h]
    exact List.cons_ne_nil _ _

theorem partsAround_eq_singleton_iff {part : List Char} (hne : mark ≠ []) :
    partsAround mark s = [part] ↔ s = part ∧ ¬mark <:+: s := by
  constructor
  · intro hparts
    by_cases h : mark <:+: s
    · obtain ⟨before, rest, rfl, hfirst⟩ := exists_standsFirst h
      rw [partsAround_of_standsFirst hne hfirst] at hparts
      exact absurd (List.cons.inj hparts).2 (partsAround_ne_nil hne rest)
    · rw [partsAround_of_absent h] at hparts
      exact ⟨List.singleton_inj.1 hparts, h⟩
  · rintro ⟨rfl, h⟩
    exact partsAround_of_absent h

/-- A text has two parts around a mark if the mark stands in it once. -/
theorem partsAround_eq_pair_iff (hne : mark ≠ []) (hmark : Unbordered mark) :
    partsAround mark s = [before, rest] ↔ StandsOnce mark s before rest := by
  constructor
  · intro hparts
    by_cases h : mark <:+: s
    · obtain ⟨b, r, rfl, hfirst⟩ := exists_standsFirst h
      rw [partsAround_of_standsFirst hne hfirst] at hparts
      obtain ⟨rfl, hrest⟩ := List.cons.inj hparts
      obtain ⟨rfl, hnone⟩ := (partsAround_eq_singleton_iff hne).1 hrest
      exact hfirst.standsOnce hmark hnone
    · rw [partsAround_of_absent h] at hparts
      cases hparts
  · intro h
    have hnone := h.absent_after hne
    rw [h.stands, partsAround_of_standsFirst hne h.standsFirst, partsAround_of_absent hnone]

end Text
end TenantGate
