import TenantGate.Proofs.TargetFaults
/-!
# Dot segments of joined paths

The segments of a joined path are those of its two parts, and perhaps an empty one.  A dot segment
is neither made nor lost where the parts meet, whichever of them brings the slash, so that a target
needs no check of the path that is joined to that of the backend.
-/

namespace TenantGate

namespace DotSegment

theorem isDotSegment_iff_mem_forms {segment : List Char} :
    isDotSegment segment = true ↔ (String.ofList segment).toLower ∈ forms := by
  have hforms : forms = [".", "%2e"] ++ ["..", ".%2e", "%2e.", "%2e%2e"] := rfl
  rw [Dot.isDotSegment_iff, Url.isSingleDot, Url.isDoubleDot, List.contains_iff_mem,
    List.contains_iff_mem, hforms, List.mem_append]

theorem hasDotSegment_iff_forms {path : String} : hasDotSegment path = true ↔
    ∃ segment ∈ path.toList.splitOn '/', (String.ofList segment).toLower ∈ forms := by
  simp only [hasDotSegment, List.any_eq_true, isDotSegment_iff_mem_forms]

/-- The dot segments around a slash are those before it and those after it. -/
theorem any_splitOn_slash (front back : List Char) :
    ((front ++ '/' :: back).splitOn '/').any isDotSegment =
      ((front.splitOn '/').any isDotSegment || (back.splitOn '/').any isDotSegment) := by
  rw [List.splitOn_append_cons_self, List.any_append]

theorem any_splitOn_nil : (([] : List Char).splitOn '/').any isDotSegment = false := by decide

end DotSegment

/-- A URL that was read has no dot segments left to resolve. -/
theorem Url.IsHttp.hasDotSegment_path {u : Url} (hu : u.IsHttp) :
    DotSegment.hasDotSegment u.path = false := by
  refine List.any_eq_false.2 fun segment hsegment => ?_
  have hregular := hu.path.isRegular_of_mem segment hsegment
  simpa [Url.isRegular] using hregular

namespace Proxy

open DotSegment

theorem hasDotSegment_joinPaths (base path : String) :
    hasDotSegment (joinPaths base path) = (hasDotSegment base || hasDotSegment path) := by
  obtain ⟨front, back, hjoin, hbase, hpath⟩ := joinPaths_eq base path
  -- a slash at the end or at the start only adds an empty segment
  have hfront : hasDotSegment base = (front.splitOn '/').any isDotSegment := by
    rcases hbase with hbase | hbase
    · rw [hasDotSegment, hbase]
    · rw [hasDotSegment, hbase, any_splitOn_slash, any_splitOn_nil, Bool.or_false]
  have hback : hasDotSegment path = (back.splitOn '/').any isDotSegment := by
    rcases hpath with hpath | hpath
    · rw [hasDotSegment, hpath]
    · rw [hasDotSegment, hpath, ← List.nil_append ('/' :: back), any_splitOn_slash, any_splitOn_nil,
        Bool.false_or]
  rw [hasDotSegment, hjoin, any_splitOn_slash, hfront, hback]

/-- What is refused for its dots is what has a dot segment as it comes in or as it is joined. -/
theorem target_eq_dotSegment_iff {backend : Url} (hb : backend.IsHttp)
    (pathMap : String → String) (inbound : Uri) :
    Proxy.target backend pathMap inbound = .error (.dotSegment inbound.path) ↔
      hasDotSegment inbound.path = true ∨
        hasDotSegment (joinPaths backend.path (pathMap inbound.path)) = true := by
  rw [hasDotSegment_joinPaths, hb.hasDotSegment_path, Bool.false_or, ← Bool.or_eq_true,
    ← dotted_iff]
  constructor
  · intro h
    by_contra hdots
    rw [target_of_not_dotted hdots, Result.mapError_eq_error] at h
    obtain ⟨_, _, h⟩ := h
    cases h
  · exact target_of_dotted

/-- A joined path has a dot segment exactly if one of its parts has one, which is a segment in one
of six forms.  The check of both paths of a request is therefore one of the path that is asked for
at the backend. -/
theorem joins_dot_segments :
    (∀ base path, hasDotSegment (joinPaths base path) = true ↔
      hasDotSegment base = true ∨ hasDotSegment path = true) ∧
    (∀ path, hasDotSegment path = true ↔
      ∃ segment ∈ path.toList.splitOn '/', (String.ofList segment).toLower ∈ forms) ∧
    ∀ text backend, Url.parse text = .ok backend → checkBackend backend = .ok () →
      ∀ pathMap inbound,
        Proxy.target backend pathMap inbound = .error (.dotSegment inbound.path) ↔
          hasDotSegment inbound.path = true ∨
            hasDotSegment (joinPaths backend.path (pathMap inbound.path)) = true := by
  refine ⟨fun base path => ?_, fun path => hasDotSegment_iff_forms, ?_⟩
  · rw [hasDotSegment_joinPaths, Bool.or_eq_true]
  · intro text backend hparse hcheck
    exact target_eq_dotSegment_iff (Url.isHttp_of_parse hparse (scheme_of_checkBackend hcheck))

/-- The URL of a backend was written with dots, and a path is mapped to one with dots or without. -/
theorem joins_dot_segments_of_dotted_backend :
    let backend : Url := { scheme := "http", authority := some { host := "backend" }, path := "/b/" }
    let inbound : Uri := ⟨none, none, "/a/%2E.x", none⟩
    Url.parse "http://backend/a/%2E./b/" = .ok backend ∧ checkBackend backend = .ok () ∧
      Proxy.target backend id inbound ≠ .error (.dotSegment inbound.path) ∧
      Proxy.target backend (· ++ "/.%2e") inbound = .error (.dotSegment inbound.path) := by
  intro backend inbound
  have hparse : Url.parse "http://backend/a/%2E./b/" = .ok backend := by decide +kernel
  have hcheck : checkBackend backend = .ok () := by decide +kernel
  obtain ⟨hjoin, _, htarget⟩ := joins_dot_segments
  have hrefused := htarget _ backend hparse hcheck
  refine ⟨hparse, hcheck, fun h => ?_, (hrefused _ inbound).2 (.inr ((hjoin _ _).2 (.inr ?_)))⟩
  · rcases (hrefused id inbound).1 h with h | h
    · exact absurd h (by decide +kernel)
    · exact absurd h (by decide +kernel)
  · decide +kernel

end Proxy
end TenantGate
