import TenantGate.Proofs.FormPairs
import TenantGate.Proofs.TargetPath
/-!
# Where a target is, and what it asks for

Scheme and authority of a target are those of the backend, whatever a request and a map of paths hold.
The pairs of its query are those of the backend and then those of the request.
-/

namespace TenantGate

namespace Url

theorem keepsMarks_isQueryChar (special : Bool) : Form.KeepsMarks (isQueryChar special) where
  percent := by cases special <;> decide
  digit c hc := by
    cases special
    · exact Percent.forall_digit (P := fun c => isQueryChar false c = true) (by decide) hc
    · exact Percent.forall_digit (P := fun c => isQueryChar true c = true) (by decide) hc
  ampersand := by cases special <;> decide
  equals := by cases special <;> decide
  plus := by cases special <;> decide

theorem isQueryChar_of_mem_writeQuery {special : Bool} {text : List Char} {c : Char}
    (hc : c ∈ (writeQuery special text).toList) : isQueryChar special c = true := by
  rw [writeQuery, String.toList_ofList] at hc
  exact Percent.keep_of_mem_encode (keepsMarks_isQueryChar special).toKeepsBytes hc

theorem isQueryChar_of_parse {text : String} {u : Url} (h : parse text = .ok u)
    (hscheme : u.scheme = "http") {q : String} (hq : u.query = some q) :
    ∀ c ∈ q.toList, isQueryChar true c = true := by
  obtain ⟨s, hread⟩ := exists_readHierarchy_of_parse h hscheme
  simp only [readHierarchy, isSpecial_http, Result.bind_eq_ok] at hread
  obtain ⟨authority, _, hread⟩ := hread
  obtain rfl := Result.pure_eq_ok.1 hread
  obtain ⟨t, _, rfl⟩ := Option.map_eq_some_iff.1 hq
  intro c hc
  exact isQueryChar_of_mem_writeQuery hc

/-- A query without spaces and dropped characters keeps its pairs when it is written. -/
theorem parse_writeQuery {special : Bool} {q : String}
    (hq : ∀ c ∈ q.toList, isDropped c = false ∧ c ≠ ' ') :
    Form.parse (writeQuery special q.toList) = Form.parse q := by
  have hkept : q.toList.filter (!isDropped ·) = q.toList :=
    List.filter_eq_self.2 fun c hc => by simp [(hq c hc).1]
  have hspace : ' ' ∉ q.toList := fun hmem => (hq ' ' hmem).2 rfl
  rw [writeQuery, hkept, Form.parse_eq_pairs q,
    ← Form.pairs_encode (keepsMarks_isQueryChar special) hspace]
  rfl

theorem clean_of_isQueryChar {c : Char} (h : isQueryChar true c = true) :
    isDropped c = false ∧ c ≠ ' ' := by
  have hne (d : Char) (hd : isQueryChar true d = false) : c ≠ d := Text.ne_of_test h hd
  refine ⟨?_, hne ' ' (by decide)⟩
  simp [isDropped, hne '\t' (by decide), hne '\n' (by decide), hne '\r' (by decide)]

end Url

namespace Uri

theorem clean_of_isQueryChar {c : Char} (h : isQueryChar c = true) :
    Url.isDropped c = false ∧ c ≠ ' ' := by
  have hne (d : Char) (hd : isQueryChar d = false) : c ≠ d := Text.ne_of_test h hd
  refine ⟨?_, hne ' ' (by decide)⟩
  simp [Url.isDropped, hne '\t' (by decide), hne '\n' (by decide), hne '\r' (by decide)]

theorem isQueryChar_of_readPath {scheme authority : Option String} {s : List Char} {uri : Uri}
    (h : readPath scheme authority s = .ok uri) :
    ∀ q ∈ uri.query, ∀ c ∈ q.toList, isQueryChar c = true := by
  unfold readPath at h
  dsimp only at h
  split at h
  · cases h
  · split at h
    · split at h
      · next hall =>
        obtain rfl := Except.ok.inj h
        intro q hq
        obtain rfl := Option.some.inj hq
        rw [String.toList_ofList]
        exact List.all_eq_true.1 hall
      · cases h
    · obtain rfl := Except.ok.inj h
      simp

theorem isQueryChar_of_parse {text : String} {uri : Uri} (h : parse text = .ok uri) :
    ∀ q ∈ uri.query, ∀ c ∈ q.toList, isQueryChar c = true := by
  unfold parse at h
  split at h
  · cases h
  · split at h
    · cases h
    · obtain rfl := Except.ok.inj h
      simp
    · exact isQueryChar_of_readPath h
    · split at h
      · cases h
      · simp only [readAbsolute, Result.bind_eq_ok] at h
        obtain ⟨_, _, h⟩ := h
        split at h
        · cases h
        · exact isQueryChar_of_readPath h
      · simp only [readAuthority, Result.bind_eq_ok] at h
        obtain ⟨_, _, h⟩ := h
        split at h
        · obtain rfl := Except.ok.inj h
          simp
        · split at h <;> cases h

end Uri

namespace Proxy

/-- What a query says; no query says nothing. -/
def queryPairs (query : Option String) : List (String × String) := Form.parse (query.getD "")

theorem queryPairs_filter (query : Option String) :
    queryPairs (query.filter (· ≠ "")) = queryPairs query := by
  cases query with
  | none => rfl
  | some q => by_cases hq : q = "" <;> simp [queryPairs, hq, Option.filter]

theorem queryPairs_joinQueries (base query : Option String) :
    queryPairs (joinQueries base query) = queryPairs base ++ queryPairs query := by
  have hnone : queryPairs none = [] := rfl
  rw [← queryPairs_filter base, ← queryPairs_filter query]
  unfold joinQueries
  split
  · next b q hb hq =>
    have htext : (b ++ "&" ++ q).toList = b.toList ++ '&' :: q.toList := by simp
    rw [hb, hq]
    simp only [queryPairs, Option.getD_some, Form.parse_eq_pairs, htext, Form.pairs_append]
  · next b hb hq => rw [hb, hq, hnone, List.append_nil]
  · next hb => rw [hb, hnone, List.nil_append]

/-- A query in which all characters are read as they stand. -/
def Clean (query : Option String) : Prop :=
  ∀ q ∈ query, ∀ c ∈ q.toList, Url.isDropped c = false ∧ c ≠ ' '

theorem Clean.filter {query : Option String} (h : Clean query) (p : String → Bool) :
    Clean (query.filter p) := fun q hq => h q (Option.mem_filter_iff.1 hq).1

theorem clean_joinQueries {base query : Option String} (hbase : Clean base) (hquery : Clean query) :
    Clean (joinQueries base query) := by
  have hb := hbase.filter (· ≠ "")
  have hq := hquery.filter (· ≠ "")
  unfold joinQueries
  split
  · next b q hbeq hqeq =>
    intro joined hjoined c hc
    obtain rfl := Option.some.inj hjoined
    simp only [String.toList_append, List.mem_append] at hc
    rcases hc with (hc | hc) | hc
    · exact hb b hbeq c hc
    · obtain rfl : c = '&' := by simpa using hc
      exact ⟨by decide, by decide⟩
    · exact hq q hqeq c hc
  · next b hbeq _ => exact hbeq ▸ hb
  · exact hq

/-- What is written for a clean query says the same. -/
theorem queryPairs_written {query : Option String} (h : Clean query) :
    queryPairs (query.map fun q => Url.writeQuery true q.toList) = queryPairs query := by
  cases query with
  | none => rfl
  | some q => exact Url.parse_writeQuery (h q rfl)

theorem query_targetUrl {backend : Url} (hb : backend.IsHttp) (path : String)
    (query : Option String) : (targetUrl backend path query).query
      = (joinQueries backend.query query).map fun q => Url.writeQuery true q.toList := by
  rw [targetUrl, Url.setQuery, Url.scheme_setPath, hb.scheme, Url.isSpecial_http]

theorem authority_targetUrl (backend : Url) (path : String) (query : Option String) :
    (targetUrl backend path query).authority = backend.authority := by
  rw [targetUrl, Url.authority_setQuery, Url.authority_setPath]

theorem hash_not_mem_writeQuery (s : List Char) : '#' ∉ (Url.writeQuery true s).toList := by
  intro hmem
  exact absurd (Url.isQueryChar_of_mem_writeQuery hmem) (by decide)

/-- The place of a target is that of the backend, and its query says what the query of the backend
says and then what the query of the request says, whichever paths are mapped to whichever. -/
theorem target_place_and_query {text inboundText : String} {backend : Url}
    {pathMap : String → String} {inbound target : Uri} (hbackend : Url.parse text = .ok backend)
    (hcheck : checkBackend backend = .ok ()) (hinbound : Uri.parse inboundText = .ok inbound)
    (htarget : Proxy.target backend pathMap inbound = .ok target) :
    target.scheme = some "http" ∧
      (∃ a, backend.authority = some a ∧ target.authority = some (Url.UrlAuthority.text a)) ∧
      queryPairs target.query = queryPairs backend.query ++ queryPairs inbound.query := by
  have hscheme := scheme_of_checkBackend hcheck
  have hb := Url.isHttp_of_parse hbackend hscheme
  have hurl : (targetUrl backend (pathMap inbound.path) inbound.query).IsHttp :=
    (hb.setPath _).setQuery _
  obtain ⟨htargetScheme, hauthority, _, hquery⟩ := hurl.parts_of_parse (target_eq_ok htarget).2
  have hclean : Clean (joinQueries backend.query inbound.query) := by
    apply clean_joinQueries
    · intro q hq c hc
      exact Url.clean_of_isQueryChar (Url.isQueryChar_of_parse hbackend hscheme hq c hc)
    · intro q hq c hc
      exact Uri.clean_of_isQueryChar (Uri.isQueryChar_of_parse hinbound q hq c hc)
  have hhash : ∀ q ∈ (targetUrl backend (pathMap inbound.path) inbound.query).query,
      '#' ∉ q.toList := by
    rw [query_targetUrl hb]
    intro q hq
    obtain ⟨joined, _, rfl⟩ := Option.map_eq_some_iff.1 hq
    exact hash_not_mem_writeQuery _
  rw [authority_targetUrl] at hauthority
  refine ⟨htargetScheme, hauthority, ?_⟩
  rw [hquery hhash, query_targetUrl hb, queryPairs_written hclean, queryPairs_joinQueries]

/-- A request that names another host, under a map to a path that looks like one. -/
theorem target_place_and_query_of_absolute :
    let backend : Url := {
      scheme := "http"
      authority := some { username := "u", password := "p", host := "127.0.0.1", portNumber := some 81 }
      path := "/base", query := some "org=1&tag=a+b", fragment := some "f" }
    let inbound : Uri := ⟨some "http", some "evil", "/q", some "x='1'&&org=2"⟩
    let target : Uri := ⟨some "http", some "u:p@127.0.0.1:81", "/base//evil/%3Fx%23",
      some "org=1&tag=a+b&x=%271%27&&org=2"⟩
    Url.parse "http://u:p@127.0.0.1:81/base?org=1&tag=a+b#f" = .ok backend ∧
      checkBackend backend = .ok () ∧ Uri.parse "http://evil/q?x='1'&&org=2" = .ok inbound ∧
      Proxy.target backend (fun _ => "//evil/?x#") inbound = .ok target ∧
      queryPairs target.query = queryPairs backend.query ++ queryPairs inbound.query := by
  intro backend inbound target
  have hparse : Url.parse "http://u:p@127.0.0.1:81/base?org=1&tag=a+b#f" = .ok backend := by
    decide +kernel
  have hcheck : checkBackend backend = .ok () := by decide +kernel
  have hinbound : Uri.parse "http://evil/q?x='1'&&org=2" = .ok inbound := by decide +kernel
  have htarget : Proxy.target backend (fun _ => "//evil/?x#") inbound = .ok target := by
    decide +kernel
  exact ⟨hparse, hcheck, hinbound, htarget,
    (target_place_and_query hparse hcheck hinbound htarget).2.2⟩

end Proxy
end TenantGate
