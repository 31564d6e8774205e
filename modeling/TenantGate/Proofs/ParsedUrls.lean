import TenantGate.Proofs.UrlHosts
import TenantGate.Proofs.WrittenPaths
import TenantGate.Url.Parse
/-!
# URLs that were read

The text of an HTTP URL is read as a URI again, and its path is found again as it is.
-/

namespace TenantGate
namespace Url

theorem keepsBytes_isUserChar : Percent.KeepsBytes isUserChar where
  percent := by decide
  digit c hc := Percent.forall_digit (P := fun c => isUserChar c = true) (by decide) hc

theorem inner_encode_isUserChar (s : List Char) : Inner (Percent.encode isUserChar s) := by
  intro c hc
  have hkeep := Percent.keep_of_mem_encode keepsBytes_isUserChar hc
  have hne (d : Char) (hd : isUserChar d = false) : c ≠ d := Text.ne_of_test hkeep hd
  simp [Uri.isAuthorityEnd, hne '/' (by decide), hne '?' (by decide), hne '#' (by decide)]

theorem inner_text {a : UrlAuthority} (huser : Inner a.username.toList)
    (hpassword : Inner a.password.toList) (hhost : Inner a.host.toList) :
    Inner (UrlAuthority.text a).toList := by
  have hcolon : Inner ":".toList := .of_all (by decide)
  have hat : Inner "@".toList := .of_all (by decide)
  have hempty : Inner "".toList := .of_all (by decide)
  unfold UrlAuthority.text
  simp only [String.toList_append]
  refine Inner.append (Inner.append ?_ hhost) ?_
  · split
    · exact hempty
    · simp only [String.toList_append]
      refine Inner.append (Inner.append huser ?_) hat
      split
      · exact hempty
      · simp only [String.toList_append]
        exact hcolon.append hpassword
  · cases a.portNumber with
    | none => exact hempty
    | some n =>
      simp only [String.toList_append]
      exact hcolon.append (Inner.repr n)

theorem inner_readAuthority {scheme : String} {s : List Char} {a : UrlAuthority}
    (hspecial : isSpecial scheme = true) (h : readAuthority scheme s = .ok a) :
    Inner (UrlAuthority.text a).toList := by
  simp only [readAuthority, hspecial, if_true, Result.check_eq_ok, Result.bind_eq_ok] at h
  obtain ⟨_, _, host, hhost, _, portNumber, _, _, h⟩ := h
  obtain rfl := Result.pure_eq_ok.1 h
  apply inner_text
  · simpa using inner_encode_isUserChar _
  · simpa using inner_encode_isUserChar _
  · exact Host.inner_parse hhost

@[simp] theorem scheme_setPath (u : Url) (path : String) : (u.setPath path).scheme = u.scheme := rfl

@[simp] theorem authority_setPath (u : Url) (path : String) :
    (u.setPath path).authority = u.authority := rfl

@[simp] theorem path_setPath (u : Url) (path : String) :
    (u.setPath path).path = writePath (isSpecial u.scheme) path.toList := rfl

@[simp] theorem scheme_setQuery (u : Url) (query : Option String) :
    (u.setQuery query).scheme = u.scheme := rfl

@[simp] theorem authority_setQuery (u : Url) (query : Option String) :
    (u.setQuery query).authority = u.authority := rfl

@[simp] theorem path_setQuery (u : Url) (query : Option String) :
    (u.setQuery query).path = u.path := rfl

/-- What an HTTP URL consists of. -/
structure IsHttp (u : Url) : Prop where
  scheme : u.scheme = "http"
  authority : ∃ a, u.authority = some a ∧ Inner (UrlAuthority.text a).toList
  path : IsWritten u.path.toList

theorem isSpecial_http : isSpecial "http" = true := by decide

theorem IsHttp.setQuery {u : Url} (hu : IsHttp u) (query : Option String) :
    IsHttp (u.setQuery query) where
  scheme := by rw [scheme_setQuery, hu.scheme]
  authority := by
    rw [authority_setQuery]
    exact hu.authority
  path := by
    rw [path_setQuery]
    exact hu.path

theorem IsHttp.path_setPath {u : Url} (hu : IsHttp u) (path : String) :
    (u.setPath path).path = writePath true path.toList := by
  rw [Url.path_setPath, hu.scheme, isSpecial_http]

theorem IsHttp.setPath {u : Url} (hu : IsHttp u) (path : String) : IsHttp (u.setPath path) where
  scheme := by rw [scheme_setPath, hu.scheme]
  authority := by
    rw [authority_setPath]
    exact hu.authority
  path := by
    rw [hu.path_setPath]
    exact isWritten_writePath _

theorem isHttp_of_readHierarchy {scheme : String} {s : List Char} {u : Url}
    (hspecial : isSpecial scheme = true) (h : readHierarchy scheme s = .ok u)
    (hscheme : u.scheme = "http") : IsHttp u := by
  simp only [readHierarchy, hspecial, Result.bind_eq_ok] at h
  obtain ⟨authority, ha, h⟩ := h
  obtain rfl := Result.pure_eq_ok.1 h
  exact ⟨hscheme, ⟨authority, rfl, inner_readAuthority hspecial ha⟩, isWritten_writePath _⟩

theorem scheme_of_readFile {s : List Char} {u : Url} (h : readFile s = .ok u) :
    u.scheme = "file" := by
  have done {x : Except UrlError (String × List Char)} {f : String × List Char → Url}
      (hf : ∀ p, (f p).scheme = "file") (hx : (x >>= fun p => pure (f p)) = .ok u) :
      u.scheme = "file" := by
    obtain ⟨p, _, hp⟩ := Result.bind_eq_ok.1 hx
    obtain rfl := Result.pure_eq_ok.1 hp
    exact hf p
  unfold readFile at h
  split at h
  · split at h
    · dsimp only at h
      split at h
      · obtain ⟨_, _, h⟩ := Result.bind_eq_ok.1 h
        exact done (fun _ => rfl) h
      · obtain ⟨_, _, h⟩ := Result.bind_eq_ok.1 h
        exact done (fun _ => rfl) h
    · exact done (fun _ => rfl) h
  · exact done (fun _ => rfl) h

theorem scheme_of_readHierarchy {scheme : String} {s : List Char} {u : Url}
    (h : readHierarchy scheme s = .ok u) : u.scheme = scheme := by
  simp only [readHierarchy, Result.bind_eq_ok] at h
  obtain ⟨_, _, h⟩ := h
  obtain rfl := Result.pure_eq_ok.1 h
  rfl

theorem exists_readHierarchy_of_parse {s : String} {u : Url} (h : parse s = .ok u)
    (hscheme : u.scheme = "http") : ∃ rest, readHierarchy "http" rest = .ok u := by
  unfold parse at h
  split at h
  · cases h
  · next scheme rest _ =>
    split at h
    · rw [scheme_of_readFile h] at hscheme
      exact absurd hscheme (by decide)
    · split at h
      · obtain rfl : scheme = "http" := (scheme_of_readHierarchy h).symm.trans hscheme
        exact ⟨_, h⟩
      · next hspecial =>
        exfalso
        have hname : u.scheme = scheme := by
          split at h
          · exact scheme_of_readHierarchy h
          · obtain rfl := Except.ok.inj h
            rfl
          · obtain rfl := Except.ok.inj h
            rfl
        rw [hname] at hscheme
        subst hscheme
        exact hspecial (by decide)

theorem isHttp_of_parse {s : String} {u : Url} (h : parse s = .ok u) (hscheme : u.scheme = "http") :
    IsHttp u := by
  obtain ⟨_, hread⟩ := exists_readHierarchy_of_parse h hscheme
  exact isHttp_of_readHierarchy isSpecial_http hread hscheme

/-- What may follow a path. -/
def IsRest (s : List Char) : Prop := ∀ c ∈ s.head?, Uri.isPathEnd c = true

theorem not_isPathEnd_of_isPathChar {path : List Char} (h : ∀ c ∈ path, isPathChar c = true) :
    ∀ c ∈ path, Uri.isPathEnd c = false := by
  intro c hc
  have hne (d : Char) (hd : isPathChar d = false) : c ≠ d := Text.ne_of_test (h c hc) hd
  simp [Uri.isPathEnd, hne '?' (by decide), hne '#' (by decide)]

theorem takeWhile_path {path rest : List Char} (hpath : ∀ c ∈ path, Uri.isPathEnd c = false)
    (hrest : IsRest rest) : (path ++ rest).takeWhile (!Uri.isPathEnd ·) = path := by
  rw [List.takeWhile_append_of_pos fun c hc => by simp [hpath c hc]]
  cases rest with
  | nil => simp
  | cons c r => simp [hrest c rfl]

theorem dropWhile_path {path rest : List Char} (hpath : ∀ c ∈ path, Uri.isPathEnd c = false)
    (hrest : IsRest rest) : (path ++ rest).dropWhile (!Uri.isPathEnd ·) = rest := by
  rw [List.dropWhile_append_of_pos fun c hc => by simp [hpath c hc]]
  cases rest with
  | nil => rfl
  | cons c r => rw [List.dropWhile_cons_of_neg (by simp [hrest c rfl])]

def restQuery : List Char → Option String
  | '?' :: r => some (String.ofList (r.takeWhile (· != '#')))
  | _ => none

theorem eq_of_readPath {scheme authority : Option String} {path rest : List Char} {uri : Uri}
    (hne : path ≠ []) (hpath : ∀ c ∈ path, Uri.isPathEnd c = false) (hrest : IsRest rest)
    (h : Uri.readPath scheme authority (path ++ rest) = .ok uri) :
    uri = ⟨scheme, authority, String.ofList path, restQuery rest⟩ := by
  have hempty : path.isEmpty = false := by simpa using hne
  simp only [Uri.readPath, takeWhile_path hpath hrest, dropWhile_path hpath hrest, hempty] at h
  split at h
  · cases h
  · split at h
    · split at h
      · obtain rfl := Except.ok.inj h
        rfl
      · cases h
    · next hnone =>
      obtain rfl := Except.ok.inj h
      have hquery : restQuery rest = none := by
        unfold restQuery
        split
        · next r => exact absurd rfl (hnone r)
        · rfl
      rw [hquery]
      rfl

theorem takeWhile_authority {authority : List Char} (h : Inner authority) (s : List Char) :
    (authority ++ '/' :: s).takeWhile (!Uri.isAuthorityEnd ·) = authority := by
  rw [List.takeWhile_append_of_pos fun c hc => by simp [h c hc],
    List.takeWhile_cons_of_neg (by decide), List.append_nil]

theorem dropWhile_authority {authority : List Char} (h : Inner authority) (s : List Char) :
    (authority ++ '/' :: s).dropWhile (!Uri.isAuthorityEnd ·) = '/' :: s := by
  rw [List.dropWhile_append_of_pos fun c hc => by simp [h c hc],
    List.dropWhile_cons_of_neg (by decide)]

theorem eq_of_readAbsolute {scheme : String} {authority path rest : List Char} {uri : Uri}
    (hauthority : Inner authority) (hpath : ∀ c ∈ path, Uri.isPathEnd c = false)
    (hstart : ∃ s, path = '/' :: s) (hrest : IsRest rest)
    (h : Uri.readAbsolute scheme (authority ++ (path ++ rest)) = .ok uri) :
    uri = ⟨some scheme, some (String.ofList authority), String.ofList path, restQuery rest⟩ := by
  obtain ⟨s, rfl⟩ := hstart
  simp only [Uri.readAbsolute, List.cons_append, takeWhile_authority hauthority,
    dropWhile_authority hauthority, Result.bind_eq_ok] at h
  obtain ⟨_, _, h⟩ := h
  split at h
  · cases h
  · exact eq_of_readPath (List.cons_ne_nil _ _) hpath hrest h

theorem parse_of_long {text : String} (h : Uri.maxLength < text.utf8ByteSize) :
    Uri.parse text = .error .tooLong :=
  if_pos h

theorem parse_eq_readAbsolute {text : String} {t : List Char}
    (ht : text.toList = 'h' :: 't' :: 't' :: 'p' :: ':' :: '/' :: '/' :: t)
    (hsize : ¬Uri.maxLength < text.utf8ByteSize) : Uri.parse text = Uri.readAbsolute "http" t := by
  have hname : ('h' :: 't' :: 't' :: 'p' :: ':' :: '/' :: '/' :: t).takeWhile Uri.isSchemeChar
      = ['h', 't', 't', 'p'] := rfl
  have hrest : ('h' :: 't' :: 't' :: 'p' :: ':' :: '/' :: '/' :: t).dropWhile Uri.isSchemeChar
      = ':' :: '/' :: '/' :: t := rfl
  have hlower : (String.ofList ['h', 't', 't', 'p']).toLower = "http" := by decide +kernel
  have hsplit : Uri.splitScheme? ('h' :: 't' :: 't' :: 'p' :: ':' :: '/' :: '/' :: t)
      = .ok (some ("http", t)) := by
    unfold Uri.splitScheme?
    simp [hname, hrest, hlower]
  rw [Uri.parse, if_neg hsize, ht]
  split
  · next heq => cases heq
  · next heq => cases heq
  · next heq => exact absurd (List.cons.inj heq).1 (by decide)
  · simp only [hsplit]

theorem readAbsolute_of_parse {text : String} {t : List Char} {uri : Uri}
    (ht : text.toList = 'h' :: 't' :: 't' :: 'p' :: ':' :: '/' :: '/' :: t)
    (h : Uri.parse text = .ok uri) : Uri.readAbsolute "http" t = .ok uri := by
  by_cases hsize : Uri.maxLength < text.utf8ByteSize
  · rw [parse_of_long hsize] at h
    cases h
  · rw [← parse_eq_readAbsolute ht hsize]
    exact h

theorem restQuery_of_query {q : String} (hq : '#' ∉ q.toList) {rest : List Char}
    (hrest : ∀ c ∈ rest.head?, c = '#') : restQuery ('?' :: (q.toList ++ rest)) = some q := by
  have hall := Text.bne_of_not_mem hq
  have htake : (q.toList ++ rest).takeWhile (· != '#') = q.toList := by
    rw [List.takeWhile_append_of_pos hall]
    cases rest with
    | nil => exact List.append_nil _
    | cons c r =>
      rw [hrest c rfl, List.takeWhile_cons_of_neg (by simp), List.append_nil]
  rw [restQuery, htake, String.ofList_toList]

theorem IsHttp.toList_text {u : Url} (hu : IsHttp u) : ∃ a rest, u.authority = some a ∧
    Inner (UrlAuthority.text a).toList ∧ IsRest rest ∧
    ((∀ q ∈ u.query, '#' ∉ q.toList) → restQuery rest = u.query) ∧
    u.text.toList = 'h' :: 't' :: 't' :: 'p' :: ':' :: '/' :: '/' ::
      ((UrlAuthority.text a).toList ++ (u.path.toList ++ rest)) := by
  obtain ⟨scheme, authority, path, query, fragment⟩ := u
  obtain ⟨rfl, ⟨a, rfl, hinner⟩, _⟩ := hu
  have hmark : Uri.isPathEnd '?' = true := by decide
  have hhash : Uri.isPathEnd '#' = true := by decide
  cases query with
  | none =>
    cases fragment with
    | none => exact ⟨a, [], rfl, hinner, by simp [IsRest], by simp [restQuery],
        by simp [text, queryText]⟩
    | some f => exact ⟨a, '#' :: f.toList, rfl, hinner, by simp [IsRest, hhash], by simp [restQuery],
        by simp [text, queryText]⟩
  | some q =>
    cases fragment with
    | none =>
      refine ⟨a, '?' :: (q.toList ++ []), rfl, hinner, by simp [IsRest, hmark], fun hq => ?_,
        by simp [text, queryText]⟩
      exact restQuery_of_query (hq q rfl) (by simp)
    | some f =>
      refine ⟨a, '?' :: (q.toList ++ '#' :: f.toList), rfl, hinner, by simp [IsRest, hmark],
        fun hq => ?_, by simp [text, queryText]⟩
      exact restQuery_of_query (hq q rfl) (by simp)

/-- The parts of the URI are those of the URL, without the fragment. -/
theorem IsHttp.parts_of_parse {u : Url} (hu : IsHttp u) {uri : Uri}
    (h : Uri.parse u.text = .ok uri) : uri.scheme = some "http" ∧
      (∃ a, u.authority = some a ∧ uri.authority = some (UrlAuthority.text a)) ∧
      uri.path = u.path ∧ ((∀ q ∈ u.query, '#' ∉ q.toList) → uri.query = u.query) := by
  obtain ⟨a, rest, ha, hinner, hrest, hquery, htext⟩ := hu.toList_text
  have habsolute := readAbsolute_of_parse htext h
  have hpath := not_isPathEnd_of_isPathChar fun c hc => (hu.path.isPathChar_of_mem hc).1
  obtain rfl := eq_of_readAbsolute hinner hpath hu.path.exists_slash hrest habsolute
  exact ⟨rfl, ⟨a, ha, by rw [String.ofList_toList]⟩, String.ofList_toList, hquery⟩

theorem IsHttp.path_of_parse {u : Url} (hu : IsHttp u) {uri : Uri} (h : Uri.parse u.text = .ok uri) :
    uri.path = u.path :=
  (hu.parts_of_parse h).2.2.1

end Url
end TenantGate
