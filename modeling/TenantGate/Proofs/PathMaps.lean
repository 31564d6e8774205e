import TenantGate.Proofs.TargetPath
/-!
# Maps of paths

A map puts a new start in the place of an old one.  It leaves the paths that it gives as they are,
unless the new start is the old one with its end cut off, for then a path that goes on with what was
cut off starts in the old way again.
-/

namespace TenantGate

/-- A text that is continued starts in a way in which it does not start by itself: it is the first
part of that start, and goes on with the other part. -/
theorem Text.prefix_append_iff {s t rest : List Char} (h : ¬s <+: t) :
    s <+: t ++ rest ↔ ∃ cut, s = t ++ cut ∧ cut <+: rest := by
  constructor
  · intro hs
    have ht : t <+: s := by
      rcases List.prefix_or_prefix_of_prefix hs (List.prefix_append t rest) with hst | hts
      · exact absurd hst h
      · exact hts
    obtain ⟨cut, rfl⟩ := ht
    exact ⟨cut, rfl, (List.prefix_append_right_inj t).1 hs⟩
  · rintro ⟨cut, rfl, hcut⟩
    exact (List.prefix_append_right_inj t).2 hcut

namespace Proxy

variable {old new path : String}

/-- The path starts in the old way again when the new start is put in its place. -/
def StartsAgain (old new path : String) : Prop :=
  ∃ cut rest, old = new ++ cut ∧ path = old ++ cut ++ rest

theorem startsAgain_append_iff {rest : String} (h : ¬old.toList <+: new.toList) :
    StartsAgain old new (old ++ rest) ↔ old.toList <+: (new ++ rest).toList := by
  rw [String.toList_append, Text.prefix_append_iff h]
  constructor
  · rintro ⟨cut, after, hold, hpath⟩
    refine ⟨cut.toList, by rw [hold, String.toList_append], after.toList, ?_⟩
    have hlists := congrArg String.toList hpath
    simp only [String.toList_append, List.append_assoc, List.append_cancel_left_eq] at hlists
    exact hlists.symm
  · rintro ⟨cut, hold, after, hrest⟩
    refine ⟨String.ofList cut, String.ofList after, ?_, ?_⟩
    · exact String.toList_injective (by simp [hold])
    · exact String.toList_injective (by simp [← hrest])

theorem not_startsAgain (h : ¬old.toList <+: path.toList) : ¬StartsAgain old new path := by
  rintro ⟨cut, rest, _, rfl⟩
  apply h
  simp

/-- A path that is mapped again stays as it is unless it starts in the old way again. -/
theorem replacePrefix_again_iff (h : ¬old.toList <+: new.toList) :
    replacePrefix old new (replacePrefix old new path) = replacePrefix old new path ↔
      ¬StartsAgain old new path := by
  by_cases hpath : old.toList <+: path.toList
  · obtain ⟨s, hs⟩ := hpath
    obtain rfl : path = old ++ String.ofList s := String.toList_injective (by simp [← hs])
    rw [replacePrefix_append, startsAgain_append_iff h]
    constructor
    · rintro hsame ⟨t, ht⟩
      have heq : new ++ String.ofList s = old ++ String.ofList t :=
        String.toList_injective (by simpa using ht.symm)
      rw [heq, replacePrefix_append] at hsame
      have hlists : new.toList = old.toList := by simpa using congrArg String.toList hsame
      exact h (hlists ▸ List.prefix_refl _)
    · exact replacePrefix_of_other new
  · rw [replacePrefix_of_other new hpath, replacePrefix_of_other new hpath]
    exact iff_of_true rfl (not_startsAgain hpath)

theorem exists_startsAgain_iff : (∃ path, StartsAgain old new path) ↔ new.toList <+: old.toList := by
  constructor
  · rintro ⟨_, cut, _, hold, _⟩
    exact ⟨cut.toList, by rw [hold, String.toList_append]⟩
  · rintro ⟨cut, hcut⟩
    refine ⟨old ++ String.ofList cut ++ "", String.ofList cut, "", ?_, rfl⟩
    exact String.toList_injective (by simp [← hcut])

/-- Starts of which neither begins with the other are put in place once and for all. -/
theorem replacePrefix_again (h : ¬old.toList <+: new.toList) (hnew : ¬new.toList <+: old.toList)
    (path : String) :
    replacePrefix old new (replacePrefix old new path) = replacePrefix old new path := by
  rw [replacePrefix_again_iff h]
  exact fun hpath => hnew (exists_startsAgain_iff.1 ⟨path, hpath⟩)

/-- A map to a start that does not begin with the old one changes a path again exactly if the path
starts in the old way again, and there are such paths exactly if the new start is a part of the old
one. -/
theorem maps_once_iff (h : ¬old.toList <+: new.toList) :
    (∀ path, replacePrefix old new (replacePrefix old new path) = replacePrefix old new path ↔
      ¬StartsAgain old new path) ∧
    ((∀ path, replacePrefix old new (replacePrefix old new path) = replacePrefix old new path) ↔
      ¬new.toList <+: old.toList) := by
  refine ⟨fun path => replacePrefix_again_iff h, ?_, replacePrefix_again h⟩
  intro hall hnew
  obtain ⟨path, hpath⟩ := exists_startsAgain_iff.2 hnew
  exact (replacePrefix_again_iff h).1 (hall path) hpath

/-- A start that is moved elsewhere is never put in place twice. -/
theorem maps_once_of_ruler : ¬"/api/v1/ruler".toList <+: "/ruler".toList ∧
    ∀ path, replacePrefix "/api/v1/ruler" "/ruler" (replacePrefix "/api/v1/ruler" "/ruler" path)
      = replacePrefix "/api/v1/ruler" "/ruler" path := by
  have h : ¬"/api/v1/ruler".toList <+: "/ruler".toList := by decide
  exact ⟨h, (maps_once_iff h).2.2 (by decide)⟩

/-- A start of which the end is cut off is found again when what follows it brings that end. -/
theorem not_maps_once : ¬∀ old new path : String, ¬old.toList <+: new.toList →
    replacePrefix old new (replacePrefix old new path) = replacePrefix old new path := by
  intro h
  have hold : ¬"/api/v1".toList <+: "/api".toList := by decide
  have hagain := h "/api/v1" "/api" "/api/v1/v1/query" hold
  have honce : replacePrefix "/api/v1" "/api" "/api/v1/v1/query" = "/api/v1/query" := by decide +kernel
  have htwice : replacePrefix "/api/v1" "/api" "/api/v1/query" = "/api/query" := by decide +kernel
  rw [honce, htwice] at hagain
  exact absurd hagain (by decide)

end Proxy

namespace Service

theorem rulerMap_rulerMap (path : String) : rulerMap (rulerMap path) = rulerMap path :=
  Proxy.replacePrefix_again (by decide) (by decide) path

theorem alertmanagerMap_alertmanagerMap (path : String) :
    alertmanagerMap (alertmanagerMap path) = alertmanagerMap path :=
  Proxy.replacePrefix_again (by decide) (by decide) path

end Service
end TenantGate
