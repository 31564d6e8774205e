import Mathlib.Data.List.Basic
import Mathlib.Data.List.TakeWhile
import TenantGate.Proofs.Results
import TenantGate.Token.Verify
/-!
# When a token is good

A token gives a tenant if each check of it succeeds, and in no other case.
-/

namespace TenantGate
namespace Claims

theorem tenant?_eq_some_iff {c : Claims} {tenant : String} :
    c.tenant? = some tenant ↔ c.subject = some ("tenant-" ++ tenant) ∧ tenant ≠ "" := by
  simp only [tenant?, bind, Option.bind_eq_some_iff, List.isPrefixOf?_eq_some_iff_append_eq]
  constructor
  · rintro ⟨subject, hs, rest, hr, ht⟩
    split at ht
    · simp at ht
    · next hne =>
      obtain rfl := Option.some.inj ht
      have hsub : subject = "tenant-" ++ String.ofList rest := by
        apply String.toList_injective
        simpa [subjectMark] using hr.symm
      exact ⟨hs.trans (congrArg some hsub), by simpa using hne⟩
  · rintro ⟨hs, hne⟩
    refine ⟨_, hs, tenant.toList, by simp [subjectMark], ?_⟩
    rw [if_neg (by simpa using hne), String.ofList_toList]

theorem checkTimes_eq_ok_iff {c : Claims} {now : Int} :
    c.checkTimes now = .ok () ↔ (∀ e, c.expires = some e → now < e) ∧
      (∀ n, c.notBefore = some n → n ≤ now) ∧ ∀ i, c.issuedAt = some i → i ≤ now := by
  have each (x : Option Int) (p : Int → Bool) :
      x.any p = false ↔ ∀ y, x = some y → p y = false := by
    cases x <;> simp
  have whole : c.checkTimes now = .ok () ↔ c.expires.any (· ≤ now) = false ∧
      c.notBefore.any (now < ·) = false ∧ c.issuedAt.any (now < ·) = false := by
    unfold checkTimes
    split
    · simp_all
    · split
      · simp_all
      · split <;> simp_all
  simp [whole, each]

end Claims

namespace Token

theorem findKey_eq_ok_iff {keys : KeySet} {keyId : Option String} {key : RsaKey} :
    findKey keys keyId = .ok key ↔ keys.find? keyId = some key := by
  unfold findKey
  split <;> simp_all

/-- What follows a check is done only if the check found nothing wrong. -/
theorem unless_eq_ok {ε α : Type} {p : Prop} [Decidable p] {e : ε} {rest : Except ε α} {a : α} :
    (do if p then throw e
        rest) = .ok a ↔ ¬p ∧ rest = .ok a := by
  split <;> simp_all [throw, throwThe, MonadExceptOf.throw, bind, Except.bind]

theorem splitLastDot?_eq_some_iff {s before last : Bytes} :
    splitLastDot? s = some (before, last) ↔ s = before ++ dot :: last ∧ dot ∉ last := by
  constructor
  · intro h
    have hrev := List.takeWhile_append_dropWhile (p := (· != dot)) (l := s.reverse)
    have hfree : ∀ b ∈ s.reverse.takeWhile (· != dot), b ≠ dot := by
      intro b hb
      simpa using List.mem_takeWhile_imp hb
    unfold splitLastDot? at h
    dsimp only at h
    split at h
    · next d rest hd =>
      have hdot : d = dot := by
        have := List.head_dropWhile_not (· != dot) (l := s.reverse) (by simp [hd])
        simpa [hd] using this
      obtain ⟨rfl, rfl⟩ := Prod.mk.inj (Option.some.inj h)
      constructor
      · rw [hd, hdot] at hrev
        simpa using (congrArg List.reverse hrev).symm
      · intro hmem
        exact hfree dot (by simpa using hmem) rfl
    · simp at h
  · rintro ⟨rfl, hlast⟩
    have hfree : ∀ b ∈ last.reverse, (b != dot) = true := by
      intro b hb
      simp only [bne_iff_ne, ne_eq]
      rintro rfl
      exact hlast (by simpa using hb)
    have hrev : (before ++ dot :: last).reverse = last.reverse ++ dot :: before.reverse := by simp
    simp only [splitLastDot?, hrev, List.takeWhile_append_of_pos hfree,
      List.dropWhile_append_of_pos hfree]
    simp

theorem parts?_eq_some_iff {token : Bytes} {p : TokenParts} :
    parts? token = some p ↔
      token = p.header ++ dot :: (p.payload ++ dot :: p.signature) ∧ dot ∉ p.payload ∧
        dot ∉ p.signature := by
  obtain ⟨header, payload, signature⟩ := p
  simp only [parts?, bind, Option.bind_eq_some_iff]
  constructor
  · rintro ⟨⟨signed, last⟩, hs, ⟨first, second⟩, hp, heq⟩
    obtain ⟨rfl, hlast⟩ := splitLastDot?_eq_some_iff.1 hs
    obtain ⟨rfl, hsecond⟩ := splitLastDot?_eq_some_iff.1 hp
    cases heq
    exact ⟨by simp, hsecond, hlast⟩
  · rintro ⟨rfl, hpayload, hsignature⟩
    refine ⟨(header ++ dot :: payload, signature), splitLastDot?_eq_some_iff.2 ⟨by simp, hsignature⟩,
      (header, payload), splitLastDot?_eq_some_iff.2 ⟨rfl, hpayload⟩, rfl⟩

theorem checkSignature_eq_ok_iff {key : RsaKey} {p : TokenParts} :
    checkSignature key p = .ok () ↔
      ∃ signature, decode p.signature = .ok signature ∧
        key.verifies (signedBytes p) signature = true := by
  simp only [checkSignature, Result.bind_eq_ok]
  constructor
  · rintro ⟨signature, hs, h⟩
    split at h
    · next hv => exact ⟨signature, hs, hv⟩
    · simp [throw, throwThe, MonadExceptOf.throw] at h
  · rintro ⟨signature, hs, hv⟩
    exact ⟨signature, hs, by rw [if_pos hv]; rfl⟩

theorem verify_eq_ok_iff {keys : KeySet} {now : Int} {token tenant : String} :
    verify keys now token = .ok tenant ↔
      ∃ parts header key claims, parts? (Bytes.ofText token) = some parts ∧
        readHeader parts.header = .ok header ∧ header.algorithm = .rs256 ∧
        keys.find? header.keyId = some key ∧ checkSignature key parts = .ok () ∧
        readClaims parts.payload = .ok claims ∧ claims.checkTimes now = .ok () ∧
        claims.tenant? = some tenant := by
  unfold verify
  cases parts? (Bytes.ofText token) with
  | none => simp [bind, Except.bind, throw, throwThe, MonadExceptOf.throw]
  | some parts =>
    simp only [pure_bind, Result.bind_eq_ok, Result.mapError_eq_ok, findKey_eq_ok_iff, unless_eq_ok,
      Decidable.not_not]
    constructor
    · rintro ⟨header, hh, ha, key, hk, ⟨⟩, hs, claims, hc, ⟨⟩, ht, hl⟩
      refine ⟨parts, header, key, claims, rfl, hh, ha, hk, hs, hc, ht, ?_⟩
      cases hn : claims.tenant? with
      | none => simp [hn, throw, throwThe, MonadExceptOf.throw] at hl
      | some name =>
        rw [hn] at hl
        exact congrArg some (Result.pure_eq_ok.1 hl)
    · rintro ⟨_, header, key, claims, ⟨⟩, hh, ha, hk, hs, hc, ht, hl⟩
      refine ⟨header, hh, ha, key, hk, (), hs, claims, hc, (), ht, ?_⟩
      rw [hl]
      rfl

end Token
end TenantGate
