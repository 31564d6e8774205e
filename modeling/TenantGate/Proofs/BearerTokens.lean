import TenantGate.Proofs.TextParts
import TenantGate.Proofs.TokenVerification
import TenantGate.Tenant.Credential
/-!
# Tokens in headers

A good token holds visible characters only and no blank, so that it is found again in the
Authorization header that carries it.
-/

namespace TenantGate

namespace Headers

theorem lt_of_isVisible {b : UInt8} (h : isVisible b = true) : b.toNat < 0x80 := by
  simp only [isVisible, Bool.or_eq_true, Bool.and_eq_true, beq_iff_eq, decide_eq_true_eq] at h
  rcases h with rfl | ⟨_, hb⟩
  · decide
  · have hle : b.toNat ≤ 0x7e := UInt8.le_iff_toNat_le.1 hb
    omega

theorem visible?_ofText {s : String} (h : ∀ b ∈ Bytes.ofText s, isVisible b = true) :
    visible? (Bytes.ofText s) = some s := by
  rw [visible?, if_pos (List.all_eq_true.2 h),
    Bytes.latin1_ofText fun b hb => lt_of_isVisible (h b hb)]

end Headers

namespace Token

theorem visible_of_value? {b : UInt8} (h : (Base64.value? .url b).isSome = true) :
    Headers.isVisible b = true ∧ b ≠ 0x20 := by
  have every : ∀ n < 256, (Base64.value? .url (UInt8.ofNat n)).isSome = true →
      Headers.isVisible (UInt8.ofNat n) = true ∧ UInt8.ofNat n ≠ 0x20 := by
    decide +kernel
  have hb := every b.toNat b.toNat_lt
  rw [UInt8.ofNat_toNat] at hb
  exact hb h

theorem visible_of_verify {keys : KeySet} {now : Int} {token tenant : String}
    (h : verify keys now token = .ok tenant) :
    ∀ b ∈ Bytes.ofText token, Headers.isVisible b = true ∧ b ≠ 0x20 := by
  obtain ⟨p, ⟨htoken, _⟩, vouches⟩ := verify_eq_ok_iff_vouches.1 h
  obtain ⟨header, key, signature, hh, _, _, hs, _⟩ := vouches.signed
  obtain ⟨claims, hc, _⟩ := vouches.claimed
  have part {s doc : Bytes} (hdoc : decode s = .ok doc) :
      ∀ b ∈ s, Headers.isVisible b = true ∧ b ≠ 0x20 := fun b hb =>
    visible_of_value? (Base64.value?_of_decodeUnpadded (Result.mapError_eq_ok.1 hdoc) b hb)
  obtain ⟨headerDoc, hheader, _⟩ := Result.bind_eq_ok.1 hh
  obtain ⟨claimsDoc, hclaims, _⟩ := Result.bind_eq_ok.1 hc
  rw [htoken]
  simp only [List.mem_append, List.mem_cons]
  rintro b (hb | rfl | hb | rfl | hb)
  · exact part hheader b hb
  · decide
  · exact part hclaims b hb
  · decide
  · exact part hs b hb

end Token

namespace Credential

theorem bearerMark_ne_nil : bearerMark ≠ [] := by decide

/-- A text without blanks is the second part of what stands after the mark. -/
theorem partsAround_bearerMark {s : List Char} (hs : ' ' ∉ s) :
    Text.partsAround bearerMark (bearerMark ++ s) = [[], s] := by
  have hnone : ¬bearerMark <:+: s := fun h => hs (h.subset (by decide))
  rw [Text.partsAround_mark bearerMark_ne_nil, Text.partsAround_of_absent hnone]

/-- The token of an Authorization header is what stands there after the mark. -/
theorem bearer_of_verify {keys : KeySet} {now : Int} {token tenant : String}
    (h : Token.verify keys now token = .ok tenant) {headers : Headers}
    (hvalue : headers.get? "authorization" = some (Bytes.ofText ("Bearer " ++ token))) :
    bearer headers = .ok token := by
  have hbytes := Token.visible_of_verify h
  have hblank : ' ' ∉ token.toList := by
    intro hmem
    have hspace : (0x20 : UInt8) ∈ Bytes.ofText token := by
      rw [Bytes.ofText_eq_flatMap]
      exact List.mem_flatMap.2 ⟨' ', hmem, by decide⟩
    exact (hbytes 0x20 hspace).2 rfl
  have hall : ∀ b ∈ Bytes.ofText ("Bearer " ++ token), Headers.isVisible b = true := by
    rw [Bytes.ofText_append]
    intro b hb
    rcases List.mem_append.1 hb with hb | hb
    · exact List.all_eq_true.1 (by decide : (Bytes.ofText "Bearer ").all Headers.isVisible = true) b hb
    · exact (hbytes b hb).1
  have hparts : Text.partsAround bearerMark ("Bearer " ++ token).toList = [[], token.toList] := by
    rw [String.toList_append]
    exact partsAround_bearerMark hblank
  have hne : Bytes.ofText ("Bearer " ++ token) ≠ [] := by
    rw [Bytes.ofText_append]
    exact List.append_ne_nil_of_left_ne_nil (by decide) _
  unfold bearer
  split
  · next hnone => simp [hvalue] at hnone
  · next hempty => exact absurd (Option.some.inj (hvalue.symm.trans hempty)) hne
  · next value _ hsome =>
    obtain rfl := Option.some.inj (hvalue.symm.trans hsome)
    simp only [Headers.visible?_ofText hall, hparts, String.ofList_toList]

end Credential
end TenantGate
