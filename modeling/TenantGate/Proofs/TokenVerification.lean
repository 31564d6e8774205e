import TenantGate.Proofs.Base64RoundTrip
import TenantGate.Proofs.ClaimMembers
import TenantGate.Proofs.TokenVerdict
/-!
# Tokens vouch for tenants

A token gives a tenant only if its key has signed it and its claims allow its use now and name the
tenant; and every token that is put together from such a header and such claims gives the tenant.
-/

namespace TenantGate

namespace Token

theorem dot_not_mem_of_decode {part b : Bytes} (h : decode part = .ok b) : dot ∉ part := by
  intro hmem
  have hvalue := Base64.value?_of_decodeUnpadded (Result.mapError_eq_ok.1 h) dot hmem
  exact absurd hvalue (by decide)

/-- The parts of a token vouch for a tenant: the key that the header names has signed them, and the
payload is an object that names the tenant and allows a use now. -/
structure Vouches (keys : KeySet) (now : Int) (p : TokenParts) (tenant : String) : Prop where
  signed : ∃ header key signature, readHeader p.header = .ok header ∧ header.algorithm = .rs256 ∧
    keys.find? header.keyId = some key ∧ decode p.signature = .ok signature ∧
    key.verifies (signedBytes p) signature = true
  claimed : ∃ claims, readClaims p.payload = .ok claims ∧ claims.Current now ∧
    claims.subject = some ("tenant-" ++ tenant)
  told : ∃ doc ms, decode p.payload = .ok doc ∧ Json.Shown doc (.object ms) ∧
    Claims.Allows ms now ("tenant-" ++ tenant)
  named : tenant ≠ ""

/-- Three parts with dots between them and none inside them. -/
def IsToken (token : String) (p : TokenParts) : Prop :=
  Bytes.ofText token = p.header ++ dot :: (p.payload ++ dot :: p.signature) ∧
    dot ∉ p.header ∧ dot ∉ p.payload ∧ dot ∉ p.signature

theorem verify_eq_ok_iff_vouches {keys : KeySet} {now : Int} {token tenant : String} :
    verify keys now token = .ok tenant ↔ ∃ p, IsToken token p ∧ Vouches keys now p tenant := by
  rw [verify_eq_ok_iff]
  constructor
  · rintro ⟨p, header, key, claims, hp, hh, ha, hk, hs, hc, ht, hn⟩
    obtain ⟨htoken, hpayload, hsignature⟩ := parts?_eq_some_iff.1 hp
    obtain ⟨signature, hdecode, hverifies⟩ := checkSignature_eq_ok_iff.1 hs
    obtain ⟨hsubject, hne⟩ := Claims.tenant?_eq_some_iff.1 hn
    obtain ⟨doc, hdoc, _⟩ := Result.bind_eq_ok.1 hh
    obtain ⟨cdoc, hcdoc, hof⟩ := Result.bind_eq_ok.1 hc
    have hclaims := Result.mapError_eq_ok.1 hof
    have hcurrent := Claims.checkTimes_eq_ok_iff.1 ht
    obtain ⟨ms, hms⟩ := Claims.exists_object hclaims
    refine ⟨p, ⟨htoken, dot_not_mem_of_decode hdoc, hpayload, hsignature⟩, ?_, ?_, ?_, hne⟩
    · exact ⟨header, key, signature, hh, ha, hk, hdecode, hverifies⟩
    · exact ⟨claims, hc, hcurrent, hsubject⟩
    · exact ⟨cdoc, ms, hcdoc, hms, Claims.allows_of_ofDocument hclaims hms hcurrent hsubject⟩
  · rintro ⟨p, ⟨htoken, _, hpayload, hsignature⟩, vouches⟩
    obtain ⟨header, key, signature, hh, ha, hk, hdecode, hverifies⟩ := vouches.signed
    obtain ⟨claims, hc, hcurrent, hsubject⟩ := vouches.claimed
    exact ⟨p, header, key, claims, parts?_eq_some_iff.2 ⟨htoken, hpayload, hsignature⟩, hh, ha, hk,
      checkSignature_eq_ok_iff.2 ⟨signature, hdecode, hverifies⟩, hc,
      Claims.checkTimes_eq_ok_iff.2 hcurrent,
      Claims.tenant?_eq_some_iff.2 ⟨hsubject, vouches.named⟩⟩

theorem exists_readClaims {keys : KeySet} {now : Int} {token tenant : String} {p : TokenParts}
    (htoken : IsToken token p) (h : verify keys now token = .ok tenant) :
    ∃ claims, readClaims p.payload = .ok claims := by
  obtain ⟨hbytes, _, hpayload, hsignature⟩ := htoken
  obtain ⟨p', _, _, claims, hp, _, _, _, _, hclaims, _⟩ := verify_eq_ok_iff.1 h
  rw [parts?_eq_some_iff.2 ⟨hbytes, hpayload, hsignature⟩] at hp
  exact ⟨claims, Option.some.inj hp ▸ hclaims⟩

def encode (doc : Bytes) : Bytes := Base64.encodeUnpadded .url doc

theorem decode_encode (doc : Bytes) : decode (encode doc) = .ok doc := by
  rw [decode, encode, Base64.decodeUnpadded_encodeUnpadded]
  rfl

theorem dot_not_mem_encode (doc : Bytes) : dot ∉ encode doc :=
  Base64.not_mem_encodeUnpadded (by decide) doc

theorem isToken_encode {token : String} {header payload signature : Bytes}
    (h : Bytes.ofText token =
      encode header ++ dot :: (encode payload ++ dot :: encode signature)) :
    IsToken token ⟨encode header, encode payload, encode signature⟩ :=
  ⟨h, dot_not_mem_encode _, dot_not_mem_encode _, dot_not_mem_encode _⟩

/-- A document that writes an object in which no name comes twice. -/
def WritesObject (ps : List (String × Json.Tree)) (doc : Bytes) : Prop :=
  (ps.map (·.1)).Nodup ∧
    ∃ s w, Json.Writes (.value (.object ps)) s ∧ Json.Blank w ∧ doc = s ++ w

theorem readHeader_encode {ps : List (String × Json.Tree)} {doc : Bytes} {header : TokenHeader}
    (hdoc : WritesObject ps doc) (hs : TokenHeader.Stated ps header) :
    readHeader (encode doc) = .ok header := by
  obtain ⟨hnames, s, w, hw, hblank, rfl⟩ := hdoc
  simp only [readHeader, decode_encode, Result.ok_bind,
    TokenHeader.ofDocument_writes hs hnames hw hblank, Result.mapError_ok]

theorem readClaims_encode {ps : List (String × Json.Tree)} {doc : Bytes} {claims : Claims}
    (hdoc : WritesObject ps doc) (hs : Claims.Stated ps claims) (hpassing : Claims.Passing ps) :
    readClaims (encode doc) = .ok claims := by
  obtain ⟨hnames, s, w, hw, hblank, rfl⟩ := hdoc
  simp only [readClaims, decode_encode, Result.ok_bind,
    Claims.ofDocument_writes hs hnames hpassing hw hblank, Result.mapError_ok]

/-- A header and claims that name the tenant, with a signature of both. -/
def Mints (keys : KeySet) (now : Int) (tenant : String) (claimsObject : List (String × Json.Tree))
    (token : String) : Prop :=
  ∃ headerObject headerDoc claimsDoc header key claims signature,
    WritesObject headerObject headerDoc ∧ WritesObject claimsObject claimsDoc ∧
    Bytes.ofText token = encode headerDoc ++ dot :: (encode claimsDoc ++ dot :: encode signature) ∧
    TokenHeader.Stated headerObject header ∧ header.algorithm = .rs256 ∧
    keys.find? header.keyId = some key ∧
    key.verifies (encode headerDoc ++ dot :: encode claimsDoc) signature = true ∧
    Claims.Stated claimsObject claims ∧ claims.Current now ∧
    claims.subject = some ("tenant-" ++ tenant) ∧ tenant ≠ ""

theorem verify_of_mints {keys : KeySet} {now : Int} {token tenant : String}
    {claimsObject : List (String × Json.Tree)} (h : Mints keys now tenant claimsObject token)
    (hpassing : Claims.Passing claimsObject) : verify keys now token = .ok tenant := by
  obtain ⟨hs, hdoc, cdoc, header, key, claims, signature, hwrites, cwrites, htoken, hheader, halg,
    hkey, hverifies, hclaims, hcurrent, hsubject, hne⟩ := h
  rw [verify_eq_ok_iff]
  refine ⟨⟨encode hdoc, encode cdoc, encode signature⟩, header, key, claims, ?_,
    readHeader_encode hwrites hheader, halg, hkey, ?_, readClaims_encode cwrites hclaims hpassing,
    Claims.checkTimes_eq_ok_iff.2 hcurrent, Claims.tenant?_eq_some_iff.2 ⟨hsubject, hne⟩⟩
  · exact parts?_eq_some_iff.2 ⟨htoken, dot_not_mem_encode _, dot_not_mem_encode _⟩
  · exact checkSignature_eq_ok_iff.2 ⟨signature, decode_encode _, hverifies⟩

/-- The modulus is the product of the two largest primes of 1024 bits. -/
def sampleKeys : KeySet where
  legacy := some ⟨(Nat.pow 2 1024 - 105) * (Nat.pow 2 1024 - 179), 65537⟩

def sampleSignatureText : String :=
  "EpI3jqqLQsTRwpNvGkaLpGkRKw0t1PqMkZw5LaPlgrw67mFQw7-tNXlW2ak77v7WOOUVC_BfCF7Yd58hbuNC"
    ++ "bTelnHIsb1gpDtLTJInFE_4hz_Cehguk6e_6IIGJFioSqsWGVK4umrRztg36e4hEKojzr3fiLvQ2q3g0lT8u"
    ++ "z7c7xAgh_xsnCIasDw4DAfXCrQccvZ6IfZPFed6wmO-iNEgGsJ1uR9l8xXcRlJ0rO01w5ZE_atbT6oFDUYvi"
    ++ "a6dZZsfBbSLzu0H_W_HkIwFeykVorCJgH6GziGNRDfqtk_LdH55249PCxWxj6IoSIkdv-YVJm6dsE0VPLyYi"
    ++ "FJi7PA"

/-- The header has an algorithm only, and the claims name the tenant and a time. -/
def sampleToken : String :=
  "eyJhbGciOiJSUzI1NiJ9" ++ "." ++ "eyJzdWIiOiJ0ZW5hbnQtdCIsImV4cCI6OX0" ++ "."
    ++ sampleSignatureText

def sampleSignature : Bytes := (decode (Bytes.ofText sampleSignatureText)).toOption.getD []

def sampleHeader : List (String × Json.Tree) := [("alg", .text "RS256")]

def sampleTime : Json.Numeral where
  whole := ⟨[0x39], by decide, List.forall_mem_singleton.2 (by decide)⟩
  no_leading_zero := by decide

def sampleClaims : List (String × Json.Tree) :=
  [("sub", .text "tenant-t"), ("exp", .number sampleTime)]

theorem writesObject_sampleHeader :
    WritesObject sampleHeader (Bytes.ofText "\x7b\"alg\":\"RS256\"\x7d") := by
  have value := Json.Writes.text Json.blank_nil (Json.spells_ofText "RS256" (by decide))
  have member := Json.Writes.pair Json.blank_nil (Json.spells_ofText "alg" (by decide))
    Json.blank_nil value
  exact ⟨by decide, _, [], .object Json.blank_nil (.lastMember member) Json.blank_nil,
    Json.blank_nil, rfl⟩

theorem writesObject_sampleClaims :
    WritesObject sampleClaims (Bytes.ofText "\x7b\"sub\":\"tenant-t\",\"exp\":9\x7d") := by
  have subject := Json.Writes.text Json.blank_nil (Json.spells_ofText "tenant-t" (by decide))
  have first := Json.Writes.pair Json.blank_nil (Json.spells_ofText "sub" (by decide))
    Json.blank_nil subject
  have last := Json.Writes.pair Json.blank_nil (Json.spells_ofText "exp" (by decide))
    Json.blank_nil (.number Json.blank_nil sampleTime)
  exact ⟨by decide, _, [], .object Json.blank_nil
    (.moreMembers first Json.blank_nil (.lastMember last)) Json.blank_nil, Json.blank_nil, rfl⟩

theorem mints_sampleToken : Mints sampleKeys 8 "t" sampleClaims sampleToken := by
  refine ⟨_, _, _, ⟨.rs256, none⟩, _, ⟨some "tenant-t", some 9, none, none⟩, sampleSignature,
    writesObject_sampleHeader, writesObject_sampleClaims, by decide +kernel, ?_, rfl, rfl, ?_, ?_, ?_,
    rfl, by decide⟩
  · constructor <;> decide
  · simp only [RsaKey.verifies, RsaKey.powMod_eq]
    decide +kernel
  · constructor <;> decide
  · simp [Claims.Current]

theorem passing_sampleClaims : Claims.Passing sampleClaims := by
  simp [Claims.Passing, Claims.uncounted, sampleClaims]

theorem sampleToken_verifies : verify sampleKeys 8 sampleToken = .ok "t" :=
  verify_of_mints mints_sampleToken passing_sampleClaims

end Token
end TenantGate
