import TenantGate.Url.Host
import TenantGate.Http.Uri
import TenantGate.Proofs.PercentDecoding
import TenantGate.Proofs.Results
/-!
# The hosts of URLs

Whatever form a host has, it is written without a character that would end the authority.
-/

namespace TenantGate

def Inner (s : List Char) : Prop := ∀ c ∈ s, Uri.isAuthorityEnd c = false

namespace Inner

theorem nil : Inner [] := by simp [Inner]

theorem of_all {s : List Char} (h : s.all (!Uri.isAuthorityEnd ·) = true) : Inner s := by
  intro c hc
  simpa using List.all_eq_true.1 h c hc

theorem append {s t : List Char} (hs : Inner s) (ht : Inner t) : Inner (s ++ t) := by
  intro c hc
  rcases List.mem_append.1 hc with hc | hc
  · exact hs c hc
  · exact ht c hc

theorem cons {c : Char} {s : List Char} (hc : Uri.isAuthorityEnd c = false) (hs : Inner s) :
    Inner (c :: s) :=
  List.forall_mem_cons.2 ⟨hc, hs⟩

theorem intercalate {sep : List Char} (hsep : Inner sep) {parts : List (List Char)}
    (hparts : ∀ x ∈ parts, Inner x) : Inner (sep.intercalate parts) :=
  Text.forall_mem_intercalate hsep hparts

theorem stringIntercalate {sep : String} (hsep : Inner sep.toList) {parts : List String}
    (hparts : ∀ x ∈ parts, Inner x.toList) : Inner (sep.intercalate parts).toList := by
  rw [String.toList_intercalate]
  apply intercalate hsep
  intro x hx
  obtain ⟨y, hy, rfl⟩ := List.mem_map.1 hx
  exact hparts y hy

theorem toDigits (base n : Nat) : Inner (Nat.toDigits base n) :=
  Text.forall_mem_toDigits (Text.forall_digitChar (by decide) (by decide)) base n

theorem repr (n : Nat) : Inner (Nat.repr n).toList := by
  rw [Nat.repr, String.toList_ofList]
  exact toDigits 10 n

end Inner

namespace Punycode

theorem inner_digit {d : Nat} (hd : d < 36) : Uri.isAuthorityEnd (digit d) = false := by
  have every : ∀ d < 36, Uri.isAuthorityEnd (digit d) = false := by decide
  exact every d hd

theorem inner_encodeNumber (bias q k : Nat) : Inner (encodeNumber bias q k) := by
  induction q using Nat.strongRecOn generalizing k with
  | ind q ih =>
    have hpos : 1 ≤ threshold k bias := by unfold threshold; omega
    have hmax : threshold k bias ≤ 26 := by unfold threshold; omega
    rw [encodeNumber]
    split
    · exact Inner.cons (inner_digit (by omega)) Inner.nil
    · have hrest : (q - threshold k bias) % (36 - threshold k bias) < 36 - threshold k bias :=
        Nat.mod_lt _ (by omega)
      have hless : (q - threshold k bias) / (36 - threshold k bias) < q :=
        Nat.lt_of_le_of_lt (Nat.div_le_self _ _) (by omega)
      exact Inner.cons (inner_digit (by omega)) (ih _ hless _)

theorem inner_encodePass (basic m : Nat) {st : EncodeState} (hst : Inner st.written) (c : Char) :
    Inner (encodePass basic m st c).written := by
  unfold encodePass
  split
  · exact hst
  · split
    · exact hst.append (inner_encodeNumber _ _ _)
    · exact hst

theorem inner_foldl_encodePass (basic m : Nat) (label : List Char) {st : EncodeState}
    (hst : Inner st.written) : Inner (label.foldl (encodePass basic m) st).written := by
  induction label generalizing st with
  | nil => exact hst
  | cons c label ih => exact ih (inner_encodePass basic m hst c)

theorem inner_encodeRest (label : List Char) (basic : Nat) (ms : List Nat) (n : Nat)
    {st : EncodeState} (hst : Inner st.written) : Inner (encodeRest label basic ms n st) := by
  induction ms generalizing n st with
  | nil => exact hst
  | cons m ms ih => exact ih (m + 1) (inner_foldl_encodePass basic m label hst)

theorem inner_encode {label : List Char} (h : Inner label) : Inner (encode label) := by
  apply inner_encodeRest
  have hbasic : Inner (label.filter fun c => c.toNat < 128) := fun c hc =>
    h c (List.mem_filter.1 hc).1
  dsimp only
  split
  · exact Inner.nil
  · exact hbasic.append (Inner.cons (by decide) Inner.nil)

end Punycode

namespace Host

theorem inner_of_not_forbidden {s : List Char} (h : s.any isForbidden = false) : Inner s := by
  intro c hc
  have hallowed : isForbidden c = false := by
    simpa using List.any_eq_false.1 h c hc
  have hne (d : Char) (hd : isForbidden d = true) : c ≠ d := (Text.ne_of_test hd hallowed).symm
  simp [Uri.isAuthorityEnd, hne '/' (by decide), hne '?' (by decide), hne '#' (by decide)]

theorem inner_label {s label : List Char} (h : label? s = some label) : Inner label := by
  unfold label? at h
  split at h
  · cases h
  · next hforbidden =>
    have hs : Inner s := inner_of_not_forbidden (by simpa using hforbidden)
    split at h
    · obtain rfl := Option.some.inj h
      exact Inner.append (.of_all (by decide)) (Punycode.inner_encode hs)
    · split at h
      · obtain rfl := Option.some.inj h
        exact hs
      · split at h
        · split at h
          · obtain rfl := Option.some.inj h
            exact hs
          · cases h
        · cases h

theorem inner_labels {parts labels : List (List Char)} (h : parts.mapM label? = some labels) :
    ∀ x ∈ labels, Inner x := by
  induction parts generalizing labels with
  | nil =>
    obtain rfl := Option.some.inj h
    simp
  | cons part parts ih =>
    rw [List.mapM_cons] at h
    simp only [Option.bind_eq_bind, Option.bind_eq_some_iff, Option.pure_def, Option.some.injEq] at h
    obtain ⟨label, hlabel, rest, hrest, rfl⟩ := h
    exact List.forall_mem_cons.2 ⟨inner_label hlabel, ih hrest⟩

theorem inner_domain {name : Bytes} {s : List Char} (h : domain? name = some s) : Inner s := by
  simp only [domain?, Option.bind_eq_bind, Option.bind_eq_some_iff, Option.some.injEq] at h
  obtain ⟨_, _, labels, hlabels, rfl⟩ := h
  exact Inner.intercalate (Inner.cons (by decide) Inner.nil) (inner_labels hlabels)

theorem inner_ipv4Text (n : Nat) : Inner (ipv4Text n).toList := by
  apply Inner.stringIntercalate (.of_all (by decide))
  intro x hx
  obtain ⟨m, _, rfl⟩ := List.mem_map.1 hx
  exact Inner.repr m

theorem inner_ipv6Text (pieces : List Nat) : Inner (ipv6Text pieces).toList := by
  have hhex (l : List Nat) :
      Inner (":".intercalate (l.map fun n => String.ofList (Nat.toDigits 16 n))).toList := by
    apply Inner.stringIntercalate (.of_all (by decide))
    intro x hx
    obtain ⟨m, _, rfl⟩ := List.mem_map.1 hx
    rw [String.toList_ofList]
    exact Inner.toDigits 16 m
  have hopen : Inner "[".toList := .of_all (by decide)
  have hclose : Inner "]".toList := .of_all (by decide)
  have hgap : Inner "::".toList := .of_all (by decide)
  unfold ipv6Text
  dsimp only
  split
  · simp only [String.toList_append]
    exact (hopen.append (hhex _)).append hclose
  · simp only [String.toList_append]
    exact (((hopen.append (hhex _)).append hgap).append (hhex _)).append hclose

theorem inner_parse {s : List Char} {host : String} (h : parse s = .ok host) : Inner host.toList := by
  unfold parse at h
  split at h
  · split at h
    · split at h
      · obtain rfl := Except.ok.inj h
        exact inner_ipv6Text _
      · cases h
    · cases h
  · split at h
    · cases h
    · cases h
    · next name _ hdomain =>
      split at h
      · split at h
        · obtain rfl := Except.ok.inj h
          exact inner_ipv4Text _
        · cases h
      · obtain rfl := Except.ok.inj h
        rw [String.toList_ofList]
        exact inner_domain hdomain

end Host
end TenantGate
