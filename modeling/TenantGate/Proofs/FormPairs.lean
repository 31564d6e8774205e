import Mathlib.Data.List.TakeWhile
import TenantGate.Proofs.PercentDecoding
import TenantGate.Text.Form
/-!
# Pairs of a query

A query that an ampersand joins to another one keeps its pairs, and percent-encoding characters that
separate nothing changes no pair.
-/

namespace TenantGate
namespace Form

def pairs (s : List Char) : List (String × String) := parse (String.ofList s)

theorem parse_eq_pairs (query : String) : parse query = pairs query.toList := by
  rw [pairs, String.ofList_toList]

theorem pairs_append (s t : List Char) : pairs (s ++ '&' :: t) = pairs s ++ pairs t := by
  simp only [pairs, parse, String.toList_ofList, List.splitOn_append_cons_self, List.filter_append,
    List.map_append]

theorem pairs_of_not_mem {s : List Char} (h : '&' ∉ s) :
    pairs s = if s = [] then [] else [decodePair s] := by
  cases s with
  | nil => rfl
  | cons c s => simp [pairs, parse, List.splitOn_eq_singleton h]

theorem splitPair_of_not_mem {s : List Char} (h : '=' ∉ s) : splitPair s = (s, []) := by
  have hall := Text.bne_of_not_mem h
  simp [splitPair, List.takeWhile_eq_self_iff.2 hall, List.dropWhile_eq_nil_iff.2 hall]

theorem splitPair_append {name : List Char} (h : '=' ∉ name) (value : List Char) :
    splitPair (name ++ '=' :: value) = (name, value) := by
  have hall := Text.bne_of_not_mem h
  rw [splitPair, List.takeWhile_append_of_pos hall, List.dropWhile_append_of_pos hall,
    List.takeWhile_cons_of_neg (by simp), List.dropWhile_cons_of_neg (by simp), List.append_nil]
  rfl

theorem cut_induction {motive : List Char → Prop} (single : ∀ s, '&' ∉ s → motive s)
    (cut : ∀ s t, '&' ∉ s → motive t → motive (s ++ '&' :: t)) (s : List Char) : motive s := by
  induction hn : s.length using Nat.strongRecOn generalizing s with
  | ind n ih =>
    by_cases h : '&' ∈ s
    · obtain ⟨front, rest, rfl, hfront⟩ := List.eq_append_cons_of_mem h
      exact cut front rest hfront (ih rest.length (by subst hn; simp; omega) rest rfl)
    · exact single s h

structure KeepsMarks (keep : Char → Bool) : Prop extends Percent.KeepsBytes keep where
  ampersand : keep '&' = true
  equals : keep '=' = true
  plus : keep '+' = true

variable {keep : Char → Bool}

theorem not_mem_encode {mark : Char} (hpercent : mark ≠ '%')
    (hdigit : Percent.digitValue? mark = none) {s : List Char} (h : mark ∉ s) :
    mark ∉ Percent.encode keep s := by
  intro hmem
  rcases Percent.mem_encode hmem with ⟨hs, _⟩ | heq | hvalue
  · exact h hs
  · exact hpercent heq
  · rw [hdigit] at hvalue
    cases hvalue

theorem encode_append_mark {mark : Char} (hmark : keep mark = true) (s t : List Char) :
    Percent.encode keep (s ++ mark :: t)
      = Percent.encode keep s ++ mark :: Percent.encode keep t := by
  rw [Percent.encode_append, Percent.encode_cons, Percent.encodeChar_of_keep hmark]
  rfl

def spaced (c : Char) : Char := if c = '+' then ' ' else c

theorem map_spaced_of_not_mem {s : List Char} (h : '+' ∉ s) : s.map spaced = s := by
  have hfix : ∀ c ∈ s, spaced c = id c := by
    intro c hc
    have hne : c ≠ '+' := fun heq => h (heq ▸ hc)
    exact if_neg hne
  rw [List.map_congr_left hfix, List.map_id]

/-- Without spaces, only pluses become spaces, whether the text is encoded before or after. -/
theorem map_spaced_encode (hplus : keep '+' = true) {s : List Char} (hs : ' ' ∉ s) :
    (Percent.encode keep s).map spaced
      = Percent.encode (fun c => keep c || c == ' ') (s.map spaced) := by
  induction s with
  | nil => rfl
  | cons c s ih =>
    have hne : c ≠ ' ' := fun heq => hs (by simp [heq])
    rw [Percent.encode_cons, List.map_append, List.map_cons, Percent.encode_cons,
      ih fun h => hs (List.mem_cons_of_mem c h)]
    congr 1
    by_cases hp : c = '+'
    · subst hp
      rw [Percent.encodeChar_of_keep hplus, Percent.encodeChar_of_keep (by simp [spaced])]
      rfl
    · have hsame : spaced c = c := if_neg hp
      have hfree : '+' ∉ Percent.encodeChar keep c := by
        have hplain : '+' ∉ [c] := fun h => hp (List.mem_singleton.1 h).symm
        have hfree : '+' ∉ Percent.encode keep [c] := not_mem_encode (by decide) (by decide) hplain
        rwa [Percent.encode_cons, Percent.encode, List.flatMap_nil, List.append_nil] at hfree
      rw [map_spaced_of_not_mem hfree, hsame]
      simp [Percent.encodeChar, hne]

theorem decode_encode (hk : KeepsMarks keep) {s : List Char} (hs : ' ' ∉ s) :
    decode (Percent.encode keep s) = decode s := by
  have hbytes : Percent.KeepsBytes fun c => keep c || c == ' ' :=
    ⟨by simp [hk.percent], fun c hc => by simp [hk.digit c hc]⟩
  change Utf8.decodeLossy (Percent.decode ((Percent.encode keep s).map spaced))
    = Utf8.decodeLossy (Percent.decode (s.map spaced))
  rw [map_spaced_encode hk.plus hs, Percent.decode_encode hbytes]

theorem decodePair_encode (hk : KeepsMarks keep) {s : List Char} (hs : ' ' ∉ s) :
    decodePair (Percent.encode keep s) = decodePair s := by
  by_cases h : '=' ∈ s
  · obtain ⟨name, value, rfl, hname⟩ := List.eq_append_cons_of_mem h
    simp only [List.mem_append, List.mem_cons, not_or] at hs
    rw [encode_append_mark hk.equals, decodePair, decodePair, splitPair_append hname,
      splitPair_append (not_mem_encode (by decide) (by decide) hname)]
    simp only [decode_encode hk hs.1, decode_encode hk hs.2.2]
  · rw [decodePair, decodePair, splitPair_of_not_mem h,
      splitPair_of_not_mem (not_mem_encode (by decide) (by decide) h)]
    simp only [decode_encode hk hs]

theorem encode_eq_nil_iff {s : List Char} : Percent.encode keep s = [] ↔ s = [] := by
  cases s with
  | nil => exact Iff.rfl
  | cons c s =>
    have hne : Percent.encodeChar keep c ≠ [] := by
      by_cases hc : keep c = true
      · simp [Percent.encodeChar_of_keep hc]
      · obtain ⟨r, hr⟩ := Percent.encodeChar_eq_cons hc
        simp [hr]
    simp [Percent.encode_cons, hne]

theorem pairs_encode (hk : KeepsMarks keep) {s : List Char} (hs : ' ' ∉ s) :
    pairs (Percent.encode keep s) = pairs s := by
  induction s using cut_induction with
  | single s h =>
    rw [pairs_of_not_mem h, pairs_of_not_mem (not_mem_encode (by decide) (by decide) h)]
    simp only [encode_eq_nil_iff, decodePair_encode hk hs]
  | cut s t h ih =>
    simp only [List.mem_append, List.mem_cons, not_or] at hs
    have hfront : pairs (Percent.encode keep s) = pairs s := by
      rw [pairs_of_not_mem h, pairs_of_not_mem (not_mem_encode (by decide) (by decide) h)]
      simp only [encode_eq_nil_iff, decodePair_encode hk hs.1]
    rw [encode_append_mark hk.ampersand, pairs_append, pairs_append, hfront, ih hs.2.2]

end Form
end TenantGate
