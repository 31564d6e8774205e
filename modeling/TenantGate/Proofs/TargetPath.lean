import Mathlib.Data.List.Basic
import TenantGate.Proofs.ParsedUrls
import TenantGate.Service.Routes
/-!
# The path that a backend sees

Without a backslash, a request reaches the backend under its path below the path of the backend:
the joined path is encoded and nothing in it is resolved.  A backslash in the path of a request
separates segments only when the URL of the target is written, so that the backend sees another path.
-/

namespace TenantGate

namespace Uri

theorem isPathChar_of_readPath {scheme authority : Option String} {s : List Char} {uri : Uri}
    (h : readPath scheme authority s = .ok uri) : ∀ c ∈ uri.path.toList, isPathChar c = true := by
  have written {path : List Char} (hpath : path.all isPathChar = true) :
      ∀ c ∈ (if path.isEmpty then "/" else String.ofList path).toList, isPathChar c = true := by
    split
    · exact List.all_eq_true.1 (by decide : "/".toList.all isPathChar = true)
    · rw [String.toList_ofList]
      exact List.all_eq_true.1 hpath
  unfold readPath at h
  dsimp only at h
  split at h
  · cases h
  · next hall =>
    have hpath := written (by simpa using hall)
    split at h
    · split at h
      · obtain rfl := Except.ok.inj h
        exact hpath
      · cases h
    · obtain rfl := Except.ok.inj h
      exact hpath

theorem isPathChar_of_parse {text : String} {uri : Uri} (h : parse text = .ok uri) :
    ∀ c ∈ uri.path.toList, isPathChar c = true := by
  unfold parse at h
  split at h
  · cases h
  · split at h
    · cases h
    · obtain rfl := Except.ok.inj h
      exact List.all_eq_true.1 (by decide : "*".toList.all isPathChar = true)
    · exact isPathChar_of_readPath h
    · split at h
      · cases h
      · simp only [readAbsolute, Result.bind_eq_ok] at h
        obtain ⟨_, _, h⟩ := h
        split at h
        · cases h
        · exact isPathChar_of_readPath h
      · simp only [readAuthority, Result.bind_eq_ok] at h
        obtain ⟨_, _, h⟩ := h
        split at h
        · obtain rfl := Except.ok.inj h
          simp
        · split at h <;> cases h

theorem isDropped_of_isPathChar {c : Char} (h : isPathChar c = true) : Url.isDropped c = false := by
  have hne (d : Char) (hd : isPathChar d = false) : c ≠ d := Text.ne_of_test h hd
  simp [Url.isDropped, hne '\t' (by decide), hne '\n' (by decide), hne '\r' (by decide)]

end Uri

theorem Url.isDropped_of_isPathChar {c : Char} (h : isPathChar c = true) : isDropped c = false := by
  have hne (d : Char) (hd : isPathChar d = false) : c ≠ d := Text.ne_of_test h hd
  simp [isDropped, hne '\t' (by decide), hne '\n' (by decide), hne '\r' (by decide)]

namespace Proxy

/-- One slash stands between the parts that the base and the path bring. -/
theorem joinPaths_eq (base path : String) : ∃ front back,
    (joinPaths base path).toList = front ++ '/' :: back ∧
      (base.toList = front ∨ base.toList = front ++ ['/']) ∧
      (path.toList = back ∨ path.toList = '/' :: back) := by
  have hends (h : (base.toList.getLast? == some '/') = true) :
      ∃ front, base.toList = front ++ ['/'] := by
    rw [beq_iff_eq, List.getLast?_eq_some_iff] at h
    exact h
  unfold joinPaths
  split
  · next rest hbase hpath =>
    obtain ⟨front, hfront⟩ := hends hbase
    exact ⟨front, rest, by simp [hfront], .inr hfront, .inr hpath⟩
  · next rest _ hpath => exact ⟨base.toList, rest, by simp [hpath], .inl rfl, .inr hpath⟩
  · exact ⟨base.toList, path.toList, by simp, .inl rfl, .inl rfl⟩
  · next hbase _ =>
    obtain ⟨front, hfront⟩ := hends hbase
    exact ⟨front, path.toList, by simp [hfront], .inr hfront, .inl rfl⟩

theorem prefix_joinPaths (base path : String) : base.toList <+: (joinPaths base path).toList := by
  obtain ⟨front, back, hjoin, hbase, _⟩ := joinPaths_eq base path
  rw [hjoin]
  rcases hbase with hbase | hbase
  · exact ⟨'/' :: back, by rw [hbase]⟩
  · exact ⟨back, by simp [hbase]⟩

theorem mem_joinPaths {base path : String} {c : Char} (hc : c ≠ '/') :
    c ∈ (joinPaths base path).toList ↔ c ∈ base.toList ∨ c ∈ path.toList := by
  obtain ⟨front, back, hjoin, hbase, hpath⟩ := joinPaths_eq base path
  rw [hjoin]
  rcases hbase with hbase | hbase <;> rcases hpath with hpath | hpath <;>
    simp [hbase, hpath, hc]

theorem mem_splitOn_joinPaths {base path : String} {x : List Char}
    (hx : x ∈ (joinPaths base path).toList.splitOn '/') :
    x ∈ base.toList.splitOn '/' ∨ x ∈ path.toList.splitOn '/' := by
  obtain ⟨front, back, hjoin, hbase, hpath⟩ := joinPaths_eq base path
  rw [hjoin, List.splitOn_append_cons_self, List.mem_append] at hx
  rcases hx with hx | hx
  · left
    rcases hbase with hbase | hbase
    · rw [hbase]
      exact hx
    · rw [hbase, List.splitOn_append_cons_self]
      exact List.mem_append_left _ hx
  · right
    rcases hpath with hpath | hpath
    · rw [hpath]
      exact hx
    · rw [hpath, List.splitOn_cons_eq_if_modifyHead, if_pos (by decide)]
      exact List.mem_cons_of_mem _ hx

theorem exists_slash_joinPaths {base : String} (path : String) (hbase : ∃ s, base.toList = '/' :: s) :
    ∃ s, (joinPaths base path).toList = '/' :: s := by
  obtain ⟨s, hs⟩ := hbase
  obtain ⟨t, ht⟩ := prefix_joinPaths base path
  exact ⟨s ++ t, by rw [← ht, hs]; rfl⟩

/-- A map of paths that brings in no backslash and takes none away. -/
structure KeepsBackslashes (pathMap : String → String) : Prop where
  backslash : ∀ path, '\\' ∈ (pathMap path).toList ↔ '\\' ∈ path.toList
  chars : ∀ path, (∀ c ∈ path.toList, Uri.isPathChar c = true) →
    ∀ c ∈ (pathMap path).toList, Uri.isPathChar c = true

theorem keepsBackslashes_id : KeepsBackslashes id := ⟨fun _ => Iff.rfl, fun _ h => h⟩

theorem replacePrefix_append (old new rest : String) :
    replacePrefix old new (old ++ rest) = new ++ rest := by
  have hrest : old.toList.isPrefixOf? (old ++ rest).toList = some rest.toList := by
    rw [List.isPrefixOf?_eq_some_iff_append_eq, String.toList_append]
  simp only [replacePrefix, hrest, String.ofList_toList]

theorem replacePrefix_of_other {old path : String} (new : String)
    (h : ¬old.toList <+: path.toList) : replacePrefix old new path = path := by
  have hnone : old.toList.isPrefixOf? path.toList = none := by
    refine Option.eq_none_iff_forall_not_mem.2 fun rest hrest => h ⟨rest, ?_⟩
    exact List.isPrefixOf?_eq_some_iff_append_eq.1 hrest
  simp only [replacePrefix, hnone]

theorem replacePrefix_cases (old new path : String) :
    (∃ rest, path = old ++ rest ∧ replacePrefix old new path = new ++ rest) ∨
      replacePrefix old new path = path := by
  by_cases h : old.toList <+: path.toList
  · obtain ⟨rest, hrest⟩ := h
    obtain rfl : path = old ++ String.ofList rest := String.toList_injective (by simp [← hrest])
    exact .inl ⟨_, rfl, replacePrefix_append old new _⟩
  · exact .inr (replacePrefix_of_other new h)

theorem keepsBackslashes_replacePrefix {old new : String} (hold : '\\' ∉ old.toList)
    (hnew : '\\' ∉ new.toList) (hchars : new.toList.all Uri.isPathChar = true) :
    KeepsBackslashes (replacePrefix old new) := by
  constructor
  · intro path
    rcases replacePrefix_cases old new path with ⟨rest, rfl, h⟩ | h
    · simp [h, hold, hnew]
    · rw [h]
  · intro path hall
    rcases replacePrefix_cases old new path with ⟨rest, rfl, h⟩ | h
    · rw [h]
      intro c hc
      rw [String.toList_append, List.mem_append] at hc
      rcases hc with hc | hc
      · exact List.all_eq_true.1 hchars c hc
      · exact hall c (by simp [hc])
    · rw [h]
      exact hall

theorem isRegular_of_hasDotSegment {path : String} (h : DotSegment.hasDotSegment path = false) :
    ∀ x ∈ path.toList.splitOn '/', Url.isRegular x = true := by
  intro x hx
  have hx := List.any_eq_false.1 h x hx
  simpa [Url.isRegular] using hx

theorem checkBackend_eq_ok_iff {backend : Url} : checkBackend backend = .ok () ↔
    backend.scheme = "http" ∧ backend.host?.getD "" ≠ "" := by
  unfold checkBackend
  by_cases hscheme : backend.scheme = "http"
  · by_cases hhost : backend.host?.getD "" = "" <;> simp [hscheme, hhost]
  · simp [hscheme]

theorem scheme_of_checkBackend {backend : Url} (h : checkBackend backend = .ok ()) :
    backend.scheme = "http" :=
  (checkBackend_eq_ok_iff.1 h).1

/-- The URL of a target, before it is read as a URI. -/
def targetUrl (backend : Url) (path : String) (query : Option String) : Url :=
  (backend.setPath (joinPaths backend.path path)).setQuery (joinQueries backend.query query)

theorem target_eq_ok {backend : Url} {pathMap : String → String} {inbound target : Uri}
    (h : Proxy.target backend pathMap inbound = .ok target) :
    DotSegment.hasDotSegment (pathMap inbound.path) = false ∧
      Uri.parse (targetUrl backend (pathMap inbound.path) inbound.query).text = .ok target := by
  unfold Proxy.target at h
  dsimp only at h
  split at h
  · cases h
  · next hdot =>
    simp only [Bool.or_eq_true, not_or, Bool.not_eq_true] at hdot
    split at h
    · next uri huri =>
      obtain rfl := Except.ok.inj h
      exact ⟨hdot.2, huri⟩
    · cases h

/-- The path of a target is the joined path as it is written in a URL. -/
theorem path_of_target {backend : Url} (hb : backend.IsHttp) {pathMap : String → String}
    {inbound target : Uri} (h : Proxy.target backend pathMap inbound = .ok target) :
    DotSegment.hasDotSegment (pathMap inbound.path) = false ∧
      target.path = Url.writePath true (joinPaths backend.path (pathMap inbound.path)).toList := by
  obtain ⟨hmapped, huri⟩ := target_eq_ok h
  refine ⟨hmapped, ?_⟩
  have hjoined := hb.setPath (joinPaths backend.path (pathMap inbound.path))
  rw [(hjoined.setQuery _).path_of_parse huri, Url.path_setQuery, hb.path_setPath]

/-- What follows the first slash when a path is joined to the path of a backend. -/
structure Joined (path s : List Char) : Prop where
  dropped : ∀ c ∈ s, Url.isDropped c = false
  regular : ∀ x ∈ s.splitOn '/', Url.isRegular x = true
  backslash : '\\' ∈ s ↔ '\\' ∈ path

theorem exists_joined {backend : Url} (hb : backend.IsHttp) {path : String}
    (hchars : ∀ c ∈ path.toList, Uri.isPathChar c = true)
    (hdot : DotSegment.hasDotSegment path = false) :
    ∃ s, (joinPaths backend.path path).toList = '/' :: s ∧ Joined path.toList s := by
  obtain ⟨s, hs⟩ := exists_slash_joinPaths path hb.path.exists_slash
  refine ⟨s, hs, ?_, ?_, ?_⟩
  · intro c hc
    by_cases hslash : c = '/'
    · subst hslash
      decide
    · have hmem : c ∈ (joinPaths backend.path path).toList := by
        rw [hs]
        exact List.mem_cons_of_mem _ hc
      rcases (mem_joinPaths hslash).1 hmem with hmem | hmem
      · exact Url.isDropped_of_isPathChar (hb.path.isPathChar_of_mem hmem).1
      · exact Uri.isDropped_of_isPathChar (hchars c hmem)
  · intro x hx
    have hmem : x ∈ (joinPaths backend.path path).toList.splitOn '/' := by
      rw [hs, List.splitOn_cons_eq_if_modifyHead, if_pos (by decide)]
      exact List.mem_cons_of_mem _ hx
    rcases mem_splitOn_joinPaths hmem with hmem | hmem
    · exact hb.path.isRegular_of_mem x hmem
    · exact isRegular_of_hasDotSegment hdot x hmem
  · have hmem : '\\' ∈ (joinPaths backend.path path).toList ↔ '\\' ∈ s := by
      rw [hs]
      simp
    rw [← hmem, mem_joinPaths (by decide)]
    constructor
    · rintro (hbase | hpath)
      · exact absurd rfl (hb.path.isPathChar_of_mem hbase).2
      · exact hpath
    · exact .inr

theorem target_path_of_not_mem {backend : Url} (hb : backend.IsHttp) {pathMap : String → String}
    {inbound target : Uri} (hchars : ∀ c ∈ (pathMap inbound.path).toList, Uri.isPathChar c = true)
    (h : Proxy.target backend pathMap inbound = .ok target)
    (hbackslash : '\\' ∉ (pathMap inbound.path).toList) :
    target.path = String.ofList
      (Percent.encode Url.isPathChar (joinPaths backend.path (pathMap inbound.path)).toList) := by
  obtain ⟨hdot, hpath⟩ := path_of_target hb h
  obtain ⟨s, hs, hjoined⟩ := exists_joined hb hchars hdot
  rw [hpath, hs]
  exact Url.writePath_of_regular hjoined.dropped (fun hmem => hbackslash (hjoined.backslash.1 hmem))
    hjoined.regular

/-- With a backslash the path of the target stands for less backslashes than the joined path. -/
theorem backslashes_target_lt {backend : Url} (hb : backend.IsHttp) {pathMap : String → String}
    {inbound target : Uri} (hchars : ∀ c ∈ (pathMap inbound.path).toList, Uri.isPathChar c = true)
    (h : Proxy.target backend pathMap inbound = .ok target)
    (hbackslash : '\\' ∈ (pathMap inbound.path).toList) :
    Url.backslashes target.path.toList
      < Url.backslashes (joinPaths backend.path (pathMap inbound.path)).toList := by
  obtain ⟨hdot, hpath⟩ := path_of_target hb h
  obtain ⟨s, hs, hjoined⟩ := exists_joined hb hchars hdot
  have hcount : 0 < s.count '\\' := List.count_pos_iff.2 (hjoined.backslash.2 hbackslash)
  have hlost := Url.backslashes_writePath hjoined.dropped
  rw [hpath, hs]
  omega

theorem keepsBackslashes_of_service {pathMap : String → String}
    (h : pathMap = id ∨ pathMap = Service.rulerMap ∨ pathMap = Service.alertmanagerMap) :
    KeepsBackslashes pathMap := by
  rcases h with rfl | rfl | rfl
  · exact keepsBackslashes_id
  · exact keepsBackslashes_replacePrefix (by decide) (by decide) (by decide)
  · exact keepsBackslashes_replacePrefix (by decide) (by decide) (by decide)

/-- The path of a target stands for the joined path exactly if the path of the request holds no
backslash, and then it starts with the path of the backend. -/
theorem target_path_iff {text inboundText : String} {backend : Url} {pathMap : String → String}
    {inbound target : Uri} (hbackend : Url.parse text = .ok backend)
    (hcheck : checkBackend backend = .ok ()) (hinbound : Uri.parse inboundText = .ok inbound)
    (hmap : pathMap = id ∨ pathMap = Service.rulerMap ∨ pathMap = Service.alertmanagerMap)
    (htarget : Proxy.target backend pathMap inbound = .ok target) :
    (Percent.decode target.path.toList
        = Percent.decode (joinPaths backend.path (pathMap inbound.path)).toList ↔
      '\\' ∉ inbound.path.toList) ∧
    ('\\' ∉ inbound.path.toList →
      target.path = String.ofList
        (Percent.encode Url.isPathChar (joinPaths backend.path (pathMap inbound.path)).toList) ∧
      backend.path.toList <+: target.path.toList) := by
  have hb := Url.isHttp_of_parse hbackend (scheme_of_checkBackend hcheck)
  have hkeeps := keepsBackslashes_of_service hmap
  have hchars := hkeeps.chars _ (Uri.isPathChar_of_parse hinbound)
  have hclean (h : '\\' ∉ inbound.path.toList) :=
    target_path_of_not_mem hb hchars htarget fun hmem => h ((hkeeps.backslash _).1 hmem)
  refine ⟨⟨?_, ?_⟩, ?_⟩
  · intro hsame hmem
    have hlost := backslashes_target_lt hb hchars htarget ((hkeeps.backslash _).2 hmem)
    rw [Url.backslashes, Url.backslashes, hsame] at hlost
    exact absurd hlost (Nat.lt_irrefl _)
  · intro h
    rw [hclean h, String.toList_ofList, Percent.decode_encode Url.keepsBytes_isPathChar]
  · intro h
    refine ⟨hclean h, ?_⟩
    obtain ⟨rest, hrest⟩ := prefix_joinPaths backend.path (pathMap inbound.path)
    have hkept : Percent.encode Url.isPathChar backend.path.toList = backend.path.toList :=
      Percent.encode_of_keep fun c hc => (hb.path.isPathChar_of_mem hc).1
    rw [hclean h, String.toList_ofList, ← hrest, Percent.encode_append, hkept]
    exact List.prefix_append _ _

/-- A rule is asked for below the base path of the ruler. -/
theorem target_path_of_rules :
    let backend : Url :=
      { scheme := "http", authority := some { host := "127.0.0.1" }, path := "/base" }
    let inbound : Uri := ⟨none, none, "/api/v1/ruler/rules", none⟩
    let target : Uri := ⟨some "http", some "127.0.0.1", "/base/ruler/rules", none⟩
    Url.parse "http://127.0.0.1/base" = .ok backend ∧ checkBackend backend = .ok () ∧
      Uri.parse "/api/v1/ruler/rules" = .ok inbound ∧
      Proxy.target backend Service.rulerMap inbound = .ok target ∧
      Percent.decode target.path.toList
        = Percent.decode (joinPaths "/base" (Service.rulerMap inbound.path)).toList ∧
      "/base".toList <+: target.path.toList := by
  intro backend inbound target
  have hparse : Url.parse "http://127.0.0.1/base" = .ok backend := by decide +kernel
  have hcheck : checkBackend backend = .ok () := by decide +kernel
  have hinbound : Uri.parse "/api/v1/ruler/rules" = .ok inbound := by decide +kernel
  have htarget : Proxy.target backend Service.rulerMap inbound = .ok target := by decide +kernel
  have hclean : '\\' ∉ inbound.path.toList := by decide +kernel
  obtain ⟨hiff, hkept⟩ := target_path_iff hparse hcheck hinbound (.inr (.inl rfl)) htarget
  exact ⟨hparse, hcheck, hinbound, htarget, hiff.2 hclean, (hkept hclean).2⟩

/-- Backslashes lead out of the base path. -/
theorem exists_target_path_ne :
    ∃ backend inbound target, Url.parse "http://127.0.0.1/base" = .ok backend ∧
      checkBackend backend = .ok () ∧ Uri.parse "/x\\..\\..\\admin" = .ok inbound ∧
      Proxy.target backend id inbound = .ok target ∧ target.path = "/admin" ∧
      Percent.decode target.path.toList
        ≠ Percent.decode (joinPaths backend.path inbound.path).toList := by
  refine ⟨{ scheme := "http", authority := some { host := "127.0.0.1" }, path := "/base" },
    ⟨none, none, "/x\\..\\..\\admin", none⟩, ⟨some "http", some "127.0.0.1", "/admin", none⟩,
    ?_, ?_, ?_, ?_, rfl, ?_⟩
  all_goals decide +kernel

end Proxy
end TenantGate
