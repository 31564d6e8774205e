import TenantGate.Proofs.JsonRefusals
import TenantGate.Proofs.TokenVerification
/-!
# The types of time claims

A token whose claims give a time that is neither an integer nor null is no good, wherever the time
stands and whatever else the claims say.  A time that is null is read like one that is missing.
-/

namespace TenantGate

namespace Json

/-- A number without a fraction and without an exponent. -/
def Tree.IsInteger : Tree → Prop
  | .number n => n.IsWhole
  | _ => False

theorem Tree.int?_of_not_isInteger {v : Tree} (h : ¬v.IsInteger) : v.int? = none := by
  cases v with
  | number n =>
    have hpart : n.fraction.isSome = true ∨ n.exponent.isSome = true := by
      refine Decidable.byContradiction fun hnone => h ?_
      simpa [Tree.IsInteger, Numeral.IsWhole] using hnone
    simp only [Tree.int?, Numeral.int?, if_pos hpart]
  | null | boolean | text | list | object => rfl

end Json

namespace Claims

open Json

theorem takesWhole_members : ∀ m ∈ members, ∀ draft v, TakesWhole (m.read draft) v := by
  intro m hm draft v
  simp only [members, List.mem_cons, List.not_mem_nil, or_false] at hm
  rcases hm with rfl | rfl | rfl | rfl
  · exact takesWhole_optionalMember decides_text _ _ draft v
  all_goals exact takesWhole_optionalMember decides_int64 _ _ draft v

def timeNames : List String := ["exp", "nbf", "iat"]

theorem unfit_time {name : String} (hname : name ∈ timeNames) {v : Tree} (hv : v ≠ .null)
    (hint : v.int? = none) : Unfit members (name, v) := by
  have refuses (set : Claims → Option Int → Claims) (draft : Claims) :
      Refuses ((optionalMember name int64 set).read draft) v :=
    refuses_optionalMember decides_int64 name set hv hint draft
  simp only [timeNames, List.mem_cons, List.not_mem_nil, or_false] at hname
  rcases hname with rfl | rfl | rfl <;> exact ⟨_, rfl, refuses _⟩

theorem ofDocument_ne_ok {ps : List (String × Tree)} {name : String} (hname : name ∈ timeNames)
    {v : Tree} (hmem : (name, v) ∈ ps) (hv : v ≠ .null) (hint : v.int? = none) {s w : Bytes}
    (hs : Writes (.value (.object ps)) s) (hw : Blank w) (c : Claims) :
    ofDocument (s ++ w) ≠ .ok c := by
  have refused : Refuses read (.object ps) :=
    refuses_record takesWhole_members hmem (unfit_time hname hv hint)
  intro h
  obtain ⟨claims, hread, _⟩ := Result.bind_eq_ok.1 h
  exact document_ne_ok refused hs hw claims hread

end Claims

namespace Token

open Json Claims

/-- The second part of the token is a document that writes the object. -/
def HasPayload (token : String) (ps : List (String × Tree)) : Prop :=
  ∃ p s w, IsToken token p ∧ Writes (.value (.object ps)) s ∧ Blank w ∧
    decode p.payload = .ok (s ++ w)

theorem exists_error_of_time {keys : KeySet} {now : Int} {token : String}
    {ps : List (String × Tree)} (hpayload : HasPayload token ps) {name : String}
    (hname : name ∈ timeNames) {v : Tree} (hmem : (name, v) ∈ ps) (hv : v ≠ .null)
    (hint : v.int? = none) : ∃ e, verify keys now token = .error e := by
  obtain ⟨p, s, w, htoken, hs, hw, hdecode⟩ := hpayload
  cases hverify : verify keys now token with
  | error e => exact ⟨e, rfl⟩
  | ok tenant =>
    obtain ⟨claims, hclaims⟩ := exists_readClaims htoken hverify
    obtain ⟨doc, hdoc, hof⟩ := Result.bind_eq_ok.1 hclaims
    obtain rfl : s ++ w = doc := Except.ok.inj (hdecode.symm.trans hdoc)
    exact absurd (Result.mapError_eq_ok.1 hof) (ofDocument_ne_ok hname hmem hv hint hs hw claims)

theorem hasPayload_of_writesObject {ps : List (String × Tree)} {doc : Bytes}
    (h : WritesObject ps doc) {token : String} (header signature : Bytes)
    (htoken : Bytes.ofText token = header ++ dot :: (encode doc ++ dot :: signature))
    (hheader : dot ∉ header) (hsignature : dot ∉ signature) : HasPayload token ps := by
  obtain ⟨_, s, w, hs, hw, rfl⟩ := h
  exact ⟨⟨header, encode (s ++ w), signature⟩, s, w,
    ⟨htoken, hheader, dot_not_mem_encode _, hsignature⟩, hs, hw, decode_encode _⟩

namespace Untimed

def signatureText : String :=
  "LFGJt9SNINuxCU9u49UcGZA_O94bsM8pkwGUDBReyq_RpfghJNJ4TU7ycbqzyYaOOiWD2bHXtnLlySOapPKv"
    ++ "jqW4kqSVkdRRU2iAoa46eK_86VteWBkCrztpUopKuHOKCvuP5850VP5iBHw__tWO8pGq3kOamnadlMrx8DM0"
    ++ "cKfjBK8fXUD73oAR6K5v1W4XqbyHKLsXN29rO41-2Y7AwLp8rKuTjwyZmiuER49hIb7bVzONNKrReaN8INDo"
    ++ "G5fggWkAJqBeHwHM55qRZ-xmEydKdtQ32l3cNtIY8oA9qc956f23EHYnfBcgavuTnCrTGXq6V16RgfwlOQ8E"
    ++ "IyP4sg"

def token : String :=
  "eyJhbGciOiJSUzI1NiJ9" ++ "."
    ++ "eyJzdWIiOiJ0ZW5hbnQtdCIsImV4cCI6bnVsbCwibmJmIjpudWxsLCJpYXQiOm51bGx9" ++ "."
    ++ signatureText

def signature : Bytes := (decode (Bytes.ofText signatureText)).toOption.getD []

def claims : List (String × Tree) :=
  [("sub", .text "tenant-t"), ("exp", .null), ("nbf", .null), ("iat", .null)]

def document : Bytes :=
  .ofText "\x7b\"sub\":\"tenant-t\",\"exp\":null,\"nbf\":null,\"iat\":null\x7d"

theorem writesObject_claims : WritesObject claims document := by
  have subject := Writes.pair blank_nil (spells_ofText "sub" (by decide)) blank_nil
    (.text blank_nil (spells_ofText "tenant-t" (by decide)))
  have expires := Writes.pair blank_nil (spells_ofText "exp" (by decide)) blank_nil
    (.null blank_nil)
  have notBefore := Writes.pair blank_nil (spells_ofText "nbf" (by decide)) blank_nil
    (.null blank_nil)
  have issuedAt := Writes.pair blank_nil (spells_ofText "iat" (by decide)) blank_nil
    (.null blank_nil)
  exact ⟨by decide, _, [], .object blank_nil (.moreMembers subject blank_nil
    (.moreMembers expires blank_nil (.moreMembers notBefore blank_nil (.lastMember issuedAt))))
    blank_nil, blank_nil, rfl⟩

theorem ofText_token : Bytes.ofText token = encode (.ofText "\x7b\"alg\":\"RS256\"\x7d") ++
    dot :: (encode document ++ dot :: encode signature) := by
  decide +kernel

theorem hasPayload_token : HasPayload token claims :=
  hasPayload_of_writesObject writesObject_claims _ _ ofText_token (dot_not_mem_encode _)
    (dot_not_mem_encode _)

theorem null_mem_claims : ∀ name ∈ timeNames, (name, Tree.null) ∈ claims := by
  simp [timeNames, claims]

theorem verify_token : verify sampleKeys 8 token = .ok "t" := by
  have passing : Passing claims := by simp [Passing, uncounted, claims]
  refine verify_of_mints ⟨_, _, document, ⟨.rs256, none⟩, _, ⟨some "tenant-t", none, none, none⟩,
    signature, writesObject_sampleHeader, writesObject_claims, ofText_token, ?_, rfl, rfl, ?_, ?_,
    ?_, rfl, by decide⟩ passing
  · constructor <;> decide
  · simp only [RsaKey.verifies, RsaKey.powMod_eq]
    decide +kernel
  · constructor <;> decide
  · simp [Claims.Current]

end Untimed

/-- A time that is not an integer spoils every token that holds it, unless it is null: then there
are tokens that are good. -/
theorem spoils_iff_ne_null {name : String} (hname : name ∈ timeNames) {v : Tree}
    (hv : ¬v.IsInteger) :
    (∀ keys now token ps, HasPayload token ps → (name, v) ∈ ps →
      ∃ e, verify keys now token = .error e) ↔ v ≠ .null := by
  constructor
  · rintro spoils rfl
    obtain ⟨e, he⟩ := spoils sampleKeys 8 Untimed.token Untimed.claims Untimed.hasPayload_token
      (Untimed.null_mem_claims name hname)
    rw [Untimed.verify_token] at he
    cases he
  · intro hne keys now token ps hpayload hmem
    exact exists_error_of_time hpayload hname hmem hne (Tree.int?_of_not_isInteger hv)

/-- A token is no good if the time when it expires is a text. -/
theorem spoils_of_text :
    HasPayload "e30.eyJleHAiOiIxIn0.AA" [("exp", .text "1")] ∧
      ∃ e, verify sampleKeys 8 "e30.eyJleHAiOiIxIn0.AA" = .error e := by
  have member := Writes.pair blank_nil (spells_ofText "exp" (by decide)) blank_nil
    (.text blank_nil (spells_ofText "1" (by decide)))
  have written : WritesObject [("exp", .text "1")] (.ofText "\x7b\"exp\":\"1\"\x7d") :=
    ⟨by decide, _, [], .object blank_nil (.lastMember member) blank_nil, blank_nil, rfl⟩
  have payload : HasPayload "e30.eyJleHAiOiIxIn0.AA" [("exp", .text "1")] :=
    hasPayload_of_writesObject written (.ofText "e30") (.ofText "AA") (by decide +kernel) (by decide)
      (by decide)
  have known : "exp" ∈ timeNames := by decide
  have not_integer : ¬(Tree.text "1").IsInteger := fun h => h
  have spoils := (spoils_iff_ne_null known not_integer).2 (by simp)
  exact ⟨payload, spoils sampleKeys 8 _ _ payload List.mem_cons_self⟩

/-- Not every time that is not an integer spoils a token. -/
theorem not_spoils :
    ¬∀ keys now token ps name v, HasPayload token ps → name ∈ timeNames → (name, v) ∈ ps →
      ¬v.IsInteger → ∃ e, verify keys now token = .error e := by
  intro spoils
  obtain ⟨e, he⟩ := spoils sampleKeys 8 Untimed.token Untimed.claims "exp" .null
    Untimed.hasPayload_token (by decide) (Untimed.null_mem_claims _ (by decide)) (fun h => h)
  rw [Untimed.verify_token] at he
  cases he

end Token
end TenantGate
