import TenantGate.Proofs.TimeClaims
/-!
# Good tokens

A good token vouches for its tenant, and no way of writing a good header and good claims is turned
down.  A time that is null is left open here: it is read as if it was missing.  Nor does every other
member pass.  The claims that do not count are read too, and if the reading of one breaks off in the
middle, the payload does not go on as it should.
-/

namespace TenantGate
namespace Token

open Json Claims

/-- The key of a good token has signed it and its claims name the tenant and allow a use now.  A
token with such a header and such claims is good, however they are written, if no time is null and
the claims that do not count can be let go. -/
theorem verify_sound_complete (keys : KeySet) (now : Int) (token tenant : String) :
    (verify keys now token = .ok tenant → ∃ p, IsToken token p ∧ Vouches keys now p tenant) ∧
      ∀ ps, Mints keys now tenant ps token → (∀ name ∈ timeNames, (name, Tree.null) ∉ ps) →
        Passing ps → verify keys now token = .ok tenant :=
  ⟨verify_eq_ok_iff_vouches.1, fun _ hmints _ hpassing => verify_of_mints hmints hpassing⟩

theorem verify_sampleToken :
    Mints sampleKeys 8 "t" sampleClaims sampleToken ∧
      (∀ name ∈ timeNames, (name, Tree.null) ∉ sampleClaims) ∧ Passing sampleClaims ∧
      verify sampleKeys 8 sampleToken = .ok "t" ∧
      ∃ p, IsToken sampleToken p ∧ Vouches sampleKeys 8 p "t" := by
  obtain ⟨sound, complete⟩ := verify_sound_complete sampleKeys 8 sampleToken "t"
  have timed : ∀ name ∈ timeNames, (name, Tree.null) ∉ sampleClaims := by simp [sampleClaims]
  have verified := complete sampleClaims mints_sampleToken timed passing_sampleClaims
  exact ⟨mints_sampleToken, timed, passing_sampleClaims, verified, sound verified⟩

namespace BrokenOff

def signatureText : String :=
  "4Cu0VeHONtPvIj9UdDxRib1qTSMHOSiCzA_X-XyOcDBMDVwsK_gYdW3xEQElZ4eRcs2GbKj44J4btjuQe_B1c"
    ++ "yRLV3-"
    ++ "8faFEqs10g_t01bWutvZ8iNmHtCj7gQ4QY37dfVDISE_aaIb0_BAFd6MfEMIIn0XTnIpEtbQ8XmFFlqVm6Kfi"
    ++ "jc4KJ06l1NUPugMltCDaYsVawY2YD2DYFFDqq4s2mFuovN_u2854glzkWD0ohw3-"
    ++ "aUnnyH7I63LWJqK_kJ4jxsTeJ8DyZPOq-inOan0ei8cNWb-"
    ++ "hBI5SGOzvSQv85SBdVATuoO053Dfvj40ldzKBv1Rt9LYJTIfL38GbzQ"

def token : String :=
  "eyJhbGciOiJSUzI1NiJ9" ++ "." ++ "eyJzdWIiOiJ0ZW5hbnQtdCIsImF1ZCI6WzFlOTk5LDJdfQ" ++ "."
    ++ signatureText

def signature : Bytes := (decode (Bytes.ofText signatureText)).toOption.getD []

def tooLarge : Numeral where
  whole := ⟨[0x31], by decide, List.forall_mem_singleton.2 (by decide)⟩
  no_leading_zero := by decide
  exponent := some ⟨false, none, ⟨[0x39, 0x39, 0x39], by decide, by simp [isDigit]⟩⟩

def two : Numeral where
  whole := ⟨[0x32], by decide, List.forall_mem_singleton.2 (by decide)⟩
  no_leading_zero := by decide

/-- The audience is a list with a number that is too large, and another number after it. -/
def claims : List (String × Tree) :=
  [("sub", .text "tenant-t"), ("aud", .list [.number tooLarge, .number two])]

def document : Bytes := .ofText "\x7b\"sub\":\"tenant-t\",\"aud\":[1e999,2]\x7d"

theorem writesObject_claims : WritesObject claims document := by
  have subject := Writes.pair blank_nil (spells_ofText "sub" (by decide)) blank_nil
    (.text blank_nil (spells_ofText "tenant-t" (by decide)))
  have numbers := Writes.element (.number blank_nil tooLarge) blank_nil
    (.lastElement (.number blank_nil two))
  have audience := Writes.pair blank_nil (spells_ofText "aud" (by decide)) blank_nil
    (.list blank_nil numbers blank_nil)
  exact ⟨by decide, _, [], .object blank_nil (.moreMembers subject blank_nil (.lastMember audience))
    blank_nil, blank_nil, rfl⟩

theorem ofText_token : Bytes.ofText token = encode (.ofText "\x7b\"alg\":\"RS256\"\x7d") ++
    dot :: (encode document ++ dot :: encode signature) := by
  decide +kernel

theorem mints_token : Mints sampleKeys 8 "t" claims token := by
  refine ⟨_, _, document, ⟨.rs256, none⟩, _, ⟨some "tenant-t", none, none, none⟩, signature,
    writesObject_sampleHeader, writesObject_claims, ofText_token, ?_, rfl, rfl, ?_, ?_, ?_, rfl,
    by decide⟩
  · constructor <;> decide
  · simp only [RsaKey.verifies, RsaKey.powMod_eq]
    decide +kernel
  · constructor <;> decide
  · simp [Claims.Current]

theorem verify_token (tenant : String) : verify sampleKeys 8 token ≠ .ok tenant := by
  intro h
  obtain ⟨c, hclaims⟩ := exists_readClaims (isToken_encode ofText_token) h
  have refused : (readClaims (encode document)).isOk = false := by
    rw [readClaims, decode_encode]
    decide +kernel
  rw [hclaims] at refused
  cases refused

end BrokenOff

/-- Not every time of a good token is an integer, and not every token with a good header and good
claims is good. -/
theorem not_sound_complete :
    ¬(∀ keys now token tenant, verify keys now token = .ok tenant → ∀ ps, HasPayload token ps →
        ∀ name ∈ timeNames, ∀ v, (name, v) ∈ ps → v.int?.isSome = true) ∧
      ¬∀ keys now token tenant ps, Mints keys now tenant ps token →
        (∀ name ∈ timeNames, (name, Tree.null) ∉ ps) → verify keys now token = .ok tenant := by
  constructor
  · intro sound
    have integer := sound _ _ _ _ Untimed.verify_token _ Untimed.hasPayload_token "exp" (by decide) _
      (Untimed.null_mem_claims _ (by decide))
    cases integer
  · intro complete
    have timed : ∀ name ∈ timeNames, (name, Tree.null) ∉ BrokenOff.claims := by
      simp [BrokenOff.claims]
    exact BrokenOff.verify_token "t" (complete _ _ _ _ _ BrokenOff.mints_token timed)

end Token
end TenantGate
