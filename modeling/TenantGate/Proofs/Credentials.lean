import TenantGate.Proofs.BearerTokens
import TenantGate.Proofs.FormRendering
/-!
# Which credentials are found in requests

An Authorization value carries a token if it is visible text in which the mark stands once, and the
token is all that comes after the mark.  In a query, the first pair of the name `api_key` holds the
token.
-/

namespace TenantGate
namespace Credential

/-- The mark stands once in a visible value, and the token is what comes after it. -/
structure Carries (value : Bytes) (token : String) : Prop where
  visible : ∀ b ∈ value, Headers.isVisible b = true
  marked : ∃ before, Text.StandsOnce bearerMark (Bytes.latin1 value).toList before token.toList

variable {headers : Headers} {value : Bytes} {token : String}

theorem unbordered_bearerMark : Text.Unbordered bearerMark := by decide

theorem carries_iff : Carries value token ↔ ∃ s before, Headers.visible? value = some s ∧
    Text.partsAround bearerMark s.toList = [before, token.toList] := by
  simp only [Text.partsAround_eq_pair_iff bearerMark_ne_nil unbordered_bearerMark]
  constructor
  · rintro ⟨hvisible, before, honce⟩
    exact ⟨_, before, if_pos (List.all_eq_true.2 hvisible), honce⟩
  · rintro ⟨s, before, hs, honce⟩
    obtain ⟨hvisible, htext⟩ := Option.ite_none_right_eq_some.1 hs
    obtain rfl := Option.some.inj htext
    exact ⟨List.all_eq_true.1 hvisible, before, honce⟩

theorem bearer_of_empty
    (h : headers.get? "authorization" = none ∨ headers.get? "authorization" = some []) :
    bearer headers = .error .missingAuthorizationHeader := by
  rcases h with h | h <;> simp only [bearer, h]

theorem bearer_of_carries (h : headers.get? "authorization" = some value) (hne : value ≠ [])
    (hcarries : Carries value token) : bearer headers = .ok token := by
  obtain ⟨s, before, hs, hparts⟩ := carries_iff.1 hcarries
  obtain ⟨b, rest, rfl⟩ := List.exists_cons_of_ne_nil hne
  simp only [bearer, h, hs, hparts, String.ofList_toList]

theorem bearer_of_not_carries (h : headers.get? "authorization" = some value) (hne : value ≠ [])
    (hnone : ∀ token, ¬Carries value token) :
    bearer headers = .error .malformedAuthorizationHeader := by
  obtain ⟨b, rest, rfl⟩ := List.exists_cons_of_ne_nil hne
  cases hs : Headers.visible? (b :: rest) with
  | none => simp only [bearer, h, hs]
  | some s =>
    simp only [bearer, h, hs]
    split
    · next before token hparts =>
      refine absurd (carries_iff.2 ⟨s, before, hs, ?_⟩) (hnone (String.ofList token))
      rw [hparts, String.toList_ofList]
    · rfl

def firstValue (headers : Headers) : Headers :=
  ⟨((headers.get? "authorization").map fun value => (.authorization, value)).toList⟩

theorem get?_firstValue (headers : Headers) :
    (firstValue headers).get? "authorization" = headers.get? "authorization" := by
  unfold firstValue
  cases headers.get? "authorization" with
  | none => rfl
  | some value => simp [Headers.get?, Headers.values]

/-- The three outcomes of looking for a token, which depend on the first value alone. -/
theorem bearer_outcomes (headers : Headers) :
    (∀ token, bearer headers = .ok token ↔
      ∃ value, headers.get? "authorization" = some value ∧ value ≠ [] ∧ Carries value token) ∧
    (bearer headers = .error .missingAuthorizationHeader ↔
      headers.get? "authorization" = none ∨ headers.get? "authorization" = some []) ∧
    (bearer headers = .error .malformedAuthorizationHeader ↔
      ∃ value, headers.get? "authorization" = some value ∧ value ≠ [] ∧
        ∀ token, ¬Carries value token) ∧
    bearer headers = bearer (firstValue headers) := by
  have hfirst : bearer headers = bearer (firstValue headers) := by
    simp only [bearer, get?_firstValue]
  rcases headers.get?_cases "authorization" with hempty | ⟨value, h, hne⟩
  · have hmissing := bearer_of_empty hempty
    refine ⟨?_, ?_, ?_, hfirst⟩ <;> rcases hempty with h | h <;> simp [hmissing, h]
  · by_cases hcarries : ∃ token, Carries value token
    · obtain ⟨token, hcarries⟩ := hcarries
      have hok := bearer_of_carries h hne hcarries
      have hsame : ∀ t, Carries value t ↔ token = t := fun t =>
        ⟨fun ht => Except.ok.inj (hok.symm.trans (bearer_of_carries h hne ht)),
          fun heq => heq ▸ hcarries⟩
      refine ⟨?_, ?_, ?_, hfirst⟩ <;> simp [hok, h, hne, hsame]
    · have hnone := not_exists.1 hcarries
      have hmalformed := bearer_of_not_carries h hne hnone
      refine ⟨?_, ?_, ?_, hfirst⟩ <;> simp [hmalformed, h, hne, hnone]

example : bearer ⟨[(.authorization, Bytes.ofText "xBearer y"), (.authorization, [])]⟩ = .ok "y" := by
  decide +kernel

example : bearer ⟨[(.authorization, Bytes.ofText "Bearer Bearer ")]⟩
    = .error .malformedAuthorizationHeader := by
  decide +kernel

/-- The first pair of a name holds a value. -/
def FirstNamed (pairs : List (String × String)) (name value : String) : Prop :=
  ∃ before after, pairs = before ++ (name, value) :: after ∧ ∀ p ∈ before, p.1 ≠ name

variable {uri : Uri} {query : String} {pairs : List (String × String)} {name : String}

theorem lookup_eq_some_iff {value : String} :
    pairs.lookup name = some value ↔ FirstNamed pairs name value := by
  simp only [List.lookup_eq_some_iff, FirstNamed, bne_iff_ne, ne_comm]

theorem lookup_eq_none_iff : pairs.lookup name = none ↔ ∀ p ∈ pairs, p.1 ≠ name := by
  simp only [List.lookup_eq_none_iff, bne_iff_ne, ne_comm]

theorem apiKey_eq_ok_iff {key : String} (hquery : uri.query = some query) :
    apiKey uri = .ok key ↔ key ≠ "" ∧ Form.lookup? query "api_key" = some key := by
  simp only [apiKey, hquery, Option.bind_some]
  cases Form.lookup? query "api_key" with
  | none => simp
  | some found =>
    by_cases hempty : found = ""
    · simp [hempty, eq_comm]
    · simp only [if_neg hempty, Except.ok.injEq, Option.some.injEq]
      exact ⟨fun heq => ⟨heq ▸ hempty, heq⟩, And.right⟩

theorem apiKey_eq_missing_iff (hquery : uri.query = some query) :
    apiKey uri = .error .missingApiKey ↔
      Form.lookup? query "api_key" = none ∨ Form.lookup? query "api_key" = some "" := by
  simp only [apiKey, hquery, Option.bind_some]
  cases Form.lookup? query "api_key" with
  | none => simp
  | some found => by_cases hempty : found = "" <;> simp [hempty]

/-- However pairs are written in the query, the first one named `api_key` decides. -/
theorem apiKey_of_renders (hquery : uri.query = some query) (hrenders : Form.Renders pairs query) :
    (∀ key, apiKey uri = .ok key ↔ key ≠ "" ∧ FirstNamed pairs "api_key" key) ∧
    (apiKey uri = .error .missingApiKey ↔
      (∀ p ∈ pairs, p.1 ≠ "api_key") ∨ FirstNamed pairs "api_key" "") := by
  have hlookup : Form.lookup? query "api_key" = pairs.lookup "api_key" :=
    hrenders.lookup?_eq (by decide)
  constructor
  · intro key
    rw [apiKey_eq_ok_iff hquery, hlookup, lookup_eq_some_iff]
  · rw [apiKey_eq_missing_iff hquery, hlookup, lookup_eq_some_iff, lookup_eq_none_iff]

namespace Sample

def keyPairs : List (String × String) := [("x", "api_key"), ("api_key", "1 +=é"), ("api_key", "t")]

def keyUri : Uri where
  path := "/api/v1/series"
  query := some "&x=api_key&a%70i%5fkey=1+%2B=%c3%A9&&api_key=t"

theorem renders_keyPairs :
    Form.Renders keyPairs "&x=api_key&a%70i%5fkey=1+%2B=%c3%A9&&api_key=t" := by
  refine ⟨["".toList, "x=api_key".toList, "a%70i%5fkey=1+%2B=%c3%A9".toList, "".toList,
    "api_key=t".toList], ?_, by decide⟩
  have other : Form.WritesPair ("x", "api_key") "x=api_key".toList :=
    .full (n := ['x']) (Form.writes_of_decode rfl (by decide +kernel))
      (Form.writes_of_decode rfl (by decide +kernel))
  have first : Form.WritesPair ("api_key", "1 +=é") "a%70i%5fkey=1+%2B=%c3%A9".toList :=
    .full (n := "a%70i%5fkey".toList) (Form.writes_of_decode rfl (by decide +kernel))
      (Form.writes_of_decode rfl (by decide +kernel))
  have second : Form.WritesPair ("api_key", "t") "api_key=t".toList :=
    .full (n := "api_key".toList) (Form.writes_of_decode rfl (by decide +kernel))
      (Form.writes_of_decode rfl (by decide +kernel))
  exact .empty (.pair other (.pair first (.empty (.pair second .nil))))

end Sample

/-- A key with encoded characters, an equals sign and a space in it, before another key. -/
theorem apiKey_of_encoded_key :
    Sample.keyUri.query = some "&x=api_key&a%70i%5fkey=1+%2B=%c3%A9&&api_key=t" ∧
      Form.Renders Sample.keyPairs "&x=api_key&a%70i%5fkey=1+%2B=%c3%A9&&api_key=t" ∧
      apiKey Sample.keyUri = .ok "1 +=é" := by
  refine ⟨rfl, Sample.renders_keyPairs, ?_⟩
  refine ((apiKey_of_renders rfl Sample.renders_keyPairs).1 "1 +=é").2 ⟨by decide, ?_⟩
  exact ⟨[("x", "api_key")], [("api_key", "t")], rfl, by decide⟩

end Credential
end TenantGate
