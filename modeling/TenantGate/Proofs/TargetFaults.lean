import TenantGate.Proofs.Authorities
import TenantGate.Proofs.RouterVerdict
import TenantGate.Proofs.TargetQuery
/-!
# Why there is no target

A request has no target if its path or the mapped one has a dot segment, or if the target would be
too long.  There is no other reason: what is written into the path and the query of a URL is always
read again, whichever characters a request or a map of paths brings.
-/

namespace TenantGate

namespace Url

theorem lt_of_isPlain {c : Char} (h : isPlain c = true) : c.toNat < 128 := by
  simp only [isPlain, Bool.and_eq_true, decide_eq_true_eq] at h
  omega

theorem uri_isPathChar {c : Char} (h : isPathChar c = true) : Uri.isPathChar c = true := by
  have hplain : isPlain c = true := (Bool.and_eq_true_iff.1 h).1
  exact Text.forall_ascii (P := fun c => isPathChar c = true → Uri.isPathChar c = true)
    (by decide +kernel) (lt_of_isPlain hplain) h

theorem uri_isQueryChar {c : Char} (h : isQueryChar true c = true) : Uri.isQueryChar c = true := by
  have hplain : isPlain c = true := (Bool.and_eq_true_iff.1 (Bool.and_eq_true_iff.1 h).1).1
  exact Text.forall_ascii (P := fun c => isQueryChar true c = true → Uri.isQueryChar c = true)
    (by decide +kernel) (lt_of_isPlain hplain) h

theorem readPath_eq_ok {scheme authority : Option String} {path rest : List Char} (hne : path ≠ [])
    (hpath : ∀ c ∈ path, isPathChar c = true) (hrest : IsRest rest)
    (hquery : ∀ q ∈ restQuery rest, ∀ c ∈ q.toList, isQueryChar true c = true) :
    Uri.readPath scheme authority (path ++ rest)
      = .ok ⟨scheme, authority, String.ofList path, restQuery rest⟩ := by
  have hinner := not_isPathEnd_of_isPathChar hpath
  have hempty : path.isEmpty = false := by simpa using hne
  have hall : path.all Uri.isPathChar = true :=
    List.all_eq_true.2 fun c hc => uri_isPathChar (hpath c hc)
  simp only [Uri.readPath, takeWhile_path hinner hrest, dropWhile_path hinner hrest, hempty, hall]
  cases rest with
  | nil => rfl
  | cons c r =>
    by_cases hc : c = '?'
    · subst hc
      have hread : (r.takeWhile (· != '#')).all Uri.isQueryChar = true := by
        rw [List.all_eq_true]
        intro c hc
        exact uri_isQueryChar (hquery _ rfl c (by rwa [String.toList_ofList]))
      simp [hread, restQuery]
    · simp [hc, restQuery]

theorem readAbsolute_eq_ok {scheme : String} {authority s path rest : List Char}
    (hinner : Inner authority) (hne : authority ≠ [])
    (hcheck : Uri.checkAuthority authority = .ok ()) (hslash : path = '/' :: s)
    (hpath : ∀ c ∈ path, isPathChar c = true) (hrest : IsRest rest)
    (hquery : ∀ q ∈ restQuery rest, ∀ c ∈ q.toList, isQueryChar true c = true) :
    Uri.readAbsolute scheme (authority ++ (path ++ rest)) = .ok ⟨some scheme,
      some (String.ofList authority), String.ofList path, restQuery rest⟩ := by
  subst hslash
  have hempty : authority.isEmpty = false := by simpa using hne
  have hread : Uri.readPath (some scheme) (some (String.ofList authority)) ('/' :: (s ++ rest)) = .ok
      ⟨some scheme, some (String.ofList authority), String.ofList ('/' :: s), restQuery rest⟩ :=
    readPath_eq_ok (List.cons_ne_nil '/' s) hpath hrest hquery
  simp only [Uri.readAbsolute, List.cons_append, takeWhile_authority hinner,
    dropWhile_authority hinner, hcheck, Result.ok_bind, hempty]
  exact hread

/-- A URL with a usual authority is read as a URI if it is not too long. -/
theorem IsHttp.exists_parse_text {u : Url} (hu : IsHttp u) {a : UrlAuthority}
    (ha : u.authority = some a) (hhost : a.host ≠ "") (husual : Host.IsUsual a.host)
    (huser : IsUserless a) (hquery : ∀ q ∈ u.query, ∀ c ∈ q.toList, isQueryChar true c = true)
    (hsize : ¬Uri.maxLength < u.text.utf8ByteSize) : ∃ uri, Uri.parse u.text = .ok uri := by
  obtain ⟨b, rest, hb, hinner, hrest, hrestQuery, htext⟩ := hu.toList_text
  obtain rfl : b = a := Option.some.inj (hb.symm.trans ha)
  obtain ⟨s, hslash⟩ := hu.path.exists_slash
  have hne : (UrlAuthority.text b).toList ≠ [] := by
    rw [huser.toList_text]
    intro hnil
    exact hhost (String.toList_eq_nil_iff.1 (List.append_eq_nil_iff.1 hnil).1)
  have hhash : ∀ q ∈ u.query, '#' ∉ q.toList := fun q hq hmem =>
    absurd (hquery q hq '#' hmem) (by decide)
  rw [parse_eq_readAbsolute htext hsize]
  exact ⟨_, readAbsolute_eq_ok hinner hne (checkAuthority_text husual huser) hslash
    (fun c hc => (hu.path.isPathChar_of_mem hc).1) hrest (hrestQuery hhash ▸ hquery)⟩

end Url

namespace Proxy

variable {backend : Url} {pathMap : String → String} {inbound : Uri} {e : TargetError}

/-- The path of a request has a dot segment, before or after it is mapped. -/
def Dotted (pathMap : String → String) (inbound : Uri) : Prop :=
  DotSegment.HasDots inbound.path ∨ DotSegment.HasDots (pathMap inbound.path)

theorem dotted_iff : Dotted pathMap inbound ↔ (DotSegment.hasDotSegment inbound.path ||
    DotSegment.hasDotSegment (pathMap inbound.path)) = true := by
  rw [Bool.or_eq_true, DotSegment.hasDotSegment_iff, DotSegment.hasDotSegment_iff, Dotted]

theorem target_of_dotted (h : Dotted pathMap inbound) :
    Proxy.target backend pathMap inbound = .error (.dotSegment inbound.path) :=
  if_pos (dotted_iff.1 h)

theorem target_of_not_dotted (h : ¬Dotted pathMap inbound) : Proxy.target backend pathMap inbound
    = (Uri.parse (targetUrl backend (pathMap inbound.path) inbound.query).text).mapError
      TargetError.invalidUri := by
  unfold Proxy.target
  dsimp only
  rw [if_neg (mt dotted_iff.2 h), targetUrl]
  split
  · next uri huri => rw [huri, Result.mapError_ok]
  · next reason hreason => rw [hreason, Result.mapError_error]

theorem isQueryChar_targetUrl {backend : Url} (hb : backend.IsHttp) (path : String)
    (query : Option String) : ∀ q ∈ (targetUrl backend path query).query,
      ∀ c ∈ q.toList, Url.isQueryChar true c = true := by
  rw [query_targetUrl hb]
  intro q hq c hc
  obtain ⟨joined, _, rfl⟩ := Option.map_eq_some_iff.1 hq
  exact Url.isQueryChar_of_mem_writeQuery hc

theorem host_ne_of_checkBackend {a : UrlAuthority} (h : checkBackend backend = .ok ())
    (ha : backend.authority = some a) : a.host ≠ "" := by
  have hhost := (checkBackend_eq_ok_iff.1 h).2
  rw [Url.host?, ha] at hhost
  exact hhost

/-- A request to a usual backend has no target exactly if a path has a dot segment or the URL of the
target, to which the fragment of the backend belongs, is too long. -/
theorem target_eq_error_iff {text : String} {a : UrlAuthority}
    (hbackend : Url.parse text = .ok backend) (hcheck : checkBackend backend = .ok ())
    (ha : backend.authority = some a) (huser : Url.IsUserless a) (hhost : Host.IsUsual a.host)
    (pathMap : String → String) (inbound : Uri) (e : TargetError) :
    Proxy.target backend pathMap inbound = .error e ↔
      (Dotted pathMap inbound ∧ e = .dotSegment inbound.path) ∨
      (¬Dotted pathMap inbound ∧ e = .invalidUri .tooLong ∧ Uri.maxLength
        < (targetUrl backend (pathMap inbound.path) inbound.query).text.utf8ByteSize) := by
  by_cases hdots : Dotted pathMap inbound
  · rw [target_of_dotted hdots]
    simp [hdots, eq_comm]
  have hb := Url.isHttp_of_parse hbackend (scheme_of_checkBackend hcheck)
  have hu : (targetUrl backend (pathMap inbound.path) inbound.query).IsHttp :=
    (hb.setPath _).setQuery _
  rw [target_of_not_dotted hdots, Result.mapError_eq_error]
  by_cases hsize : Uri.maxLength
      < (targetUrl backend (pathMap inbound.path) inbound.query).text.utf8ByteSize
  · rw [Url.parse_of_long hsize]
    simp [hdots, hsize, eq_comm]
  · obtain ⟨uri, huri⟩ := hu.exists_parse_text ((authority_targetUrl _ _ _).trans ha)
      (host_ne_of_checkBackend hcheck ha) hhost huser (isQueryChar_targetUrl hb _ _) hsize
    rw [huri]
    simp [hdots, hsize]

/-- An address as host, and characters in the path and the query that have to be encoded. -/
theorem target_eq_error_iff_of_odd_path :
    let a : UrlAuthority := { host := "[::1]", portNumber := some 9009 }
    let backend : Url := { scheme := "http", authority := some a, path := "/base",
                           query := some "org=1", fragment := some "f" }
    let inbound : Uri := ⟨none, none, "/a\"\x7bb\x7d|^\\é", some "x=\x60é|^\x7b\x7d"⟩
    let pathMap : String → String := fun path => path ++ " <\x7f>?#\t"
    Url.parse "http://[::1]:9009/base?org=1#f" = .ok backend ∧ checkBackend backend = .ok () ∧
      Url.IsUserless a ∧ Host.IsUsual a.host ∧
      Uri.parse "/a\"\x7bb\x7d|^\\é?x=\x60é|^\x7b\x7d" = .ok inbound ∧
      ∀ e, Proxy.target backend pathMap inbound ≠ .error e := by
  intro a backend inbound pathMap
  have hbackend : Url.parse "http://[::1]:9009/base?org=1#f" = .ok backend := by decide +kernel
  have hcheck : checkBackend backend = .ok () := by decide +kernel
  have huser : Url.IsUserless a := ⟨rfl, rfl⟩
  have hpieces : Host.ipv6? "::1".toList = some [0, 0, 0, 0, 0, 0, 0, 1] := by decide +kernel
  have hname : Host.ipv6Text [0, 0, 0, 0, 0, 0, 0, 1] = "[::1]" := by decide +kernel
  have hhost : Host.IsUsual "[::1]" := hname ▸ Host.IsUsual.ipv6 hpieces
  have hinbound : Uri.parse "/a\"\x7bb\x7d|^\\é?x=\x60é|^\x7b\x7d" = .ok inbound := by
    decide +kernel
  have hclean : ¬Dotted pathMap inbound := fun h => absurd (dotted_iff.1 h) (by decide +kernel)
  have hsize : ¬Uri.maxLength
      < (targetUrl backend (pathMap inbound.path) inbound.query).text.utf8ByteSize := by decide +kernel
  refine ⟨hbackend, hcheck, huser, hhost, hinbound, fun e he => ?_⟩
  rcases (target_eq_error_iff hbackend hcheck rfl huser hhost pathMap inbound e).1 he with h | h
  · exact hclean h.1
  · exact hsize h.2.2

end Proxy
end TenantGate
