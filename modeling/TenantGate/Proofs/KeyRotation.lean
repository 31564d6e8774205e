import TenantGate.Proofs.KeySets
import TenantGate.Proofs.TokenVerification
/-!
# Key rotation is local

What becomes of a token depends on the one key that its header asks for, and on that key only if
the header asks for it in the right way.  So all other keys may come and go.
-/

namespace TenantGate
namespace Token

open KeySet

/-- The first part of the token is a header. -/
def HasHeader (token : String) (header : TokenHeader) : Prop :=
  ∃ p, parts? (Bytes.ofText token) = some p ∧ readHeader p.header = .ok header

theorem HasHeader.unique {token : String} {header header' : TokenHeader}
    (h : HasHeader token header) (h' : HasHeader token header') : header = header' := by
  obtain ⟨p, hp, hheader⟩ := h
  obtain ⟨p', hp', hheader'⟩ := h'
  obtain rfl := Option.some.inj (hp.symm.trans hp')
  exact Except.ok.inj (hheader.symm.trans hheader')

/-- The key in the text has signed the token. -/
def SignedBy (pem token : String) : Prop :=
  ∃ key p, keyOf? pem = some key ∧ parts? (Bytes.ofText token) = some p ∧
    checkSignature key p = .ok ()

/-- Of all keys, verification sees the one that a header of the right algorithm asks for. -/
theorem verify_eq_of_find? {k₁ k₂ : KeySet} {now : Int} {token : String}
    (h : ∀ header, HasHeader token header → header.algorithm = .rs256 →
      k₁.find? header.keyId = k₂.find? header.keyId) :
    verify k₁ now token = verify k₂ now token := by
  unfold verify
  cases hparts : parts? (Bytes.ofText token) with
  | none => rfl
  | some p =>
    cases hheader : readHeader p.header with
    | error e =>
      simp only [pure_bind, hheader]
      rfl
    | ok header =>
      simp only [pure_bind, hheader, Result.mapError_ok, Result.ok_bind]
      by_cases halgorithm : header.algorithm = .rs256
      · have hkey := h header ⟨p, hparts, hheader⟩ halgorithm
        have hfound : findKey k₁ header.keyId = findKey k₂ header.keyId := by
          unfold findKey
          rw [hkey]
        simp only [hfound]
      · simp only [ne_eq, halgorithm, not_false_eq_true, if_true]
        rfl

theorem signedBy_of_verify {k : KeySet} {now : Int} {token tenant : String} {header : TokenHeader}
    (hheader : HasHeader token header) (h : verify k now token = .ok tenant) {P : String → Prop}
    (hkey : ∀ key, k.find? header.keyId = some key → ∃ pem, P pem ∧ keyOf? pem = some key) :
    ∃ pem, P pem ∧ SignedBy pem token := by
  obtain ⟨p, header', key, _, hparts, hread, _, hfind, hsigned, _⟩ := verify_eq_ok_iff.1 h
  obtain rfl := hheader.unique ⟨p, hparts, hread⟩
  obtain ⟨pem, hpem, hof⟩ := hkey key hfind
  exact ⟨pem, hpem, key, p, hof, hparts, hsigned⟩

section TwoSources

variable {set₁ legacy₁ set₂ legacy₂ : Option String} {k₁ k₂ : KeySet}
  (h₁ : ofSources set₁ legacy₁ = .ok k₁) (h₂ : ofSources set₂ legacy₂ = .ok k₂)
include h₁ h₂

theorem find?_eq_of_binds {name : String}
    (h : ∀ pem, Binds set₁ name pem ↔ Binds set₂ name pem) :
    k₁.find? (some name) = k₂.find? (some name) := by
  refine Option.ext fun key => ?_
  rw [find?_name_iff h₁, find?_name_iff h₂]
  simp only [h]

theorem find?_none_eq (h : legacy₁ = legacy₂) : k₁.find? none = k₂.find? none := by
  obtain ⟨_, _, _, _, hread₁, _, _⟩ := ofSources_eq_ok_iff.1 h₁
  obtain ⟨_, _, _, _, hread₂, _, _⟩ := ofSources_eq_ok_iff.1 h₂
  rw [h, hread₂] at hread₁
  exact (Except.ok.inj hread₁).symm

/-- A token that names a key is judged by what the set binds to this name, a token that names none
by the legacy text, and a token without a header that asks for RS256 by no key at all. -/
theorem rotates_locally (now : Int) (token : String) :
    (∀ header name, HasHeader token header → header.keyId = some name →
      ((∀ pem, Binds set₁ name pem ↔ Binds set₂ name pem) →
        verify k₁ now token = verify k₂ now token) ∧
      ∀ tenant, verify k₁ now token = .ok tenant →
        ∃ pem, Binds set₁ name pem ∧ SignedBy pem token) ∧
    (∀ header, HasHeader token header → header.keyId = none →
      (legacy₁ = legacy₂ → verify k₁ now token = verify k₂ now token) ∧
      ∀ tenant, verify k₁ now token = .ok tenant →
        ∃ pem, legacy₁ = some pem ∧ SignedBy pem token) ∧
    ((¬∃ header, HasHeader token header ∧ header.algorithm = .rs256) →
      ∀ k k' : KeySet, verify k now token = verify k' now token) := by
  refine ⟨?named, ?unnamed, ?unread⟩
  case named =>
    intro header name hheader hname
    refine ⟨fun hbinds => verify_eq_of_find? ?_, fun tenant hverify => ?_⟩
    · intro header' hheader' _
      rw [hheader'.unique hheader, hname]
      exact find?_eq_of_binds h₁ h₂ hbinds
    · refine signedBy_of_verify hheader hverify fun key hkey => ?_
      rw [hname] at hkey
      exact (find?_name_iff h₁).1 hkey
  case unnamed =>
    intro header hheader hname
    refine ⟨fun hlegacy => verify_eq_of_find? ?_, fun tenant hverify => ?_⟩
    · intro header' hheader' _
      rw [hheader'.unique hheader, hname]
      exact find?_none_eq h₁ h₂ hlegacy
    · refine signedBy_of_verify hheader hverify fun key hkey => ?_
      rw [hname] at hkey
      exact keyOf?_of_find?_none h₁ hkey
  case unread =>
    intro hnone k k'
    exact verify_eq_of_find? fun header hheader halgorithm =>
      absurd ⟨header, hheader, halgorithm⟩ hnone

end TwoSources

namespace Rotation

open Json

def pem (body : String) : String :=
  "-----BEGIN PUBLIC KEY-----" ++ "\n" ++ body ++ "\n" ++ "-----END PUBLIC KEY-----"

def first : String × String :=
  ("2f84ebd15d3c6d614b9a4ae2c7192de2aaa4b702", pem "MBowDQYJKoZIhvcNAQEBBQADCQAwBgIBDwIBAw==")

def second : String × String :=
  ("ff5058efd1c2f652739ae14509a3d0a0ee5a923d", pem "MBowDQYJKoZIhvcNAQEBBQADCQAwBgIBFQIBBQ==")

def oneKey : String :=
  "\x7b\"2f84ebd15d3c6d614b9a4ae2c7192de2aaa4b702\":\"-----BEGIN PUBLIC KEY-----\\n"
    ++ "MBowDQYJKoZIhvcNAQEBBQADCQAwBgIBDwIBAw==\\n-----END PUBLIC KEY-----\"\x7d"

def twoKeys : String :=
  "\x7b\"ff5058efd1c2f652739ae14509a3d0a0ee5a923d\":\"-----BEGIN PUBLIC KEY-----\\n"
    ++ "MBowDQYJKoZIhvcNAQEBBQADCQAwBgIBFQIBBQ==\\n-----END PUBLIC KEY-----\","
    ++ "\"2f84ebd15d3c6d614b9a4ae2c7192de2aaa4b702\":\"-----BEGIN PUBLIC KEY-----\\n"
    ++ "MBowDQYJKoZIhvcNAQEBBQADCQAwBgIBDwIBAw==\\n-----END PUBLIC KEY-----\"\x7d"

def before : KeySet := ⟨[(first.1, ⟨15, 3⟩)], none⟩

def after : KeySet := ⟨[(second.1, ⟨21, 5⟩), (first.1, ⟨15, 3⟩)], some ⟨21, 5⟩⟩

theorem writes_entry (e : String × String) (hname : e.1.toList.all isPlain = true)
    (hpem : (e.2.toList.all fun c => isPlain c || c == '\n') = true) :
    Writes (.member (e.1, .text e.2)) ([] ++ 0x22 :: (Bytes.ofText e.1 ++ 0x22 :: ([] ++ 0x3a ::
      ([] ++ 0x22 :: (escapeLines e.2 ++ [0x22]))))) :=
  .pair blank_nil (spells_ofText e.1 hname) blank_nil
    (.text blank_nil (spells_escapeLines e.2 hpem))

theorem lists_sets : Lists oneKey [first] ∧ Lists twoKeys [second, first] := by
  have entry := writes_entry first (by decide) (by decide)
  have added := writes_entry second (by decide) (by decide)
  refine ⟨⟨_, [], ?_, .object blank_nil (.lastMember entry) blank_nil, blank_nil⟩,
    ⟨_, [], ?_, .object blank_nil (.moreMembers added blank_nil (.lastMember entry)) blank_nil,
      blank_nil⟩⟩
  · decide +kernel
  · decide +kernel

theorem reads_keys : readEntry first.1 first.2 = .ok (first.1, ⟨15, 3⟩) ∧
    readEntry second.1 second.2 = .ok (second.1, ⟨21, 5⟩) ∧
    readLegacy (some second.2) = .ok (some ⟨21, 5⟩) := by
  decide +kernel

theorem ofSources_oneKey : ofSources (some oneKey) none = .ok before := by
  have entries : lastValues [first] = [first] := by decide
  refine ofSources_eq_ok_iff.2 ⟨oneKey, [first], rfl, by decide, rfl, lists_sets.1, ?_⟩
  simp only [entries, List.mapM_cons, List.mapM_nil, reads_keys.1]
  rfl

theorem ofSources_twoKeys : ofSources (some twoKeys) (some second.2) = .ok after := by
  obtain ⟨readFirst, readSecond, legacy⟩ := reads_keys
  have entries : lastValues [second, first] = [second, first] := by decide
  refine ofSources_eq_ok_iff.2 ⟨twoKeys, [second, first], rfl, by decide, legacy, lists_sets.2, ?_⟩
  simp only [entries, List.mapM_cons, List.mapM_nil, readFirst, readSecond]
  rfl

theorem binds_first_iff (pem : String) :
    Binds (some oneKey) first.1 pem ↔ Binds (some twoKeys) first.1 pem := by
  have same : [first].reverse.lookup first.1 = [second, first].reverse.lookup first.1 := by decide
  rw [binds_iff lists_sets.1, binds_iff lists_sets.2, same]

def header : Bytes :=
  .ofText "\x7b\"alg\":\"RS256\",\"kid\":\"2f84ebd15d3c6d614b9a4ae2c7192de2aaa4b702\"\x7d"

def token : String :=
  "eyJhbGciOiJSUzI1NiIsImtpZCI6IjJmODRlYmQxNWQzYzZkNjE0YjlhNGFlMmM3MTkyZGUyYWFhNGI3MDIifQ"
    ++ ".e30.AA"

theorem writesObject_header :
    WritesObject [("alg", .text "RS256"), ("kid", .text first.1)] header := by
  have algorithm := Writes.pair blank_nil (spells_ofText "alg" (by decide)) blank_nil
    (.text blank_nil (spells_ofText "RS256" (by decide)))
  have keyId := Writes.pair blank_nil (spells_ofText "kid" (by decide)) blank_nil
    (.text blank_nil (spells_ofText first.1 (by decide)))
  refine ⟨by decide, _, [], .object blank_nil
    (.moreMembers algorithm blank_nil (.lastMember keyId)) blank_nil, blank_nil, rfl⟩

theorem hasHeader_token : HasHeader token ⟨.rs256, some first.1⟩ := by
  have stated : TokenHeader.Stated [("alg", .text "RS256"), ("kid", .text first.1)]
      ⟨.rs256, some first.1⟩ := by
    constructor <;> decide
  refine ⟨⟨encode header, .ofText "e30", .ofText "AA"⟩, parts?_eq_some_iff.2 ?_,
    readHeader_encode writesObject_header stated⟩
  decide +kernel

end Rotation

/-- A second key and a legacy key change nothing for a token that names the first key. -/
theorem rotates_locally_of_second_key :
    ofSources (some Rotation.oneKey) none = .ok Rotation.before ∧
      ofSources (some Rotation.twoKeys) (some Rotation.second.2) = .ok Rotation.after ∧
      HasHeader Rotation.token ⟨.rs256, some Rotation.first.1⟩ ∧
      verify Rotation.before 0 Rotation.token = verify Rotation.after 0 Rotation.token := by
  refine ⟨Rotation.ofSources_oneKey, Rotation.ofSources_twoKeys, Rotation.hasHeader_token, ?_⟩
  have rotated := rotates_locally Rotation.ofSources_oneKey Rotation.ofSources_twoKeys 0 Rotation.token
  exact (rotated.1 _ _ Rotation.hasHeader_token rfl).1 Rotation.binds_first_iff

end Token
end TenantGate
