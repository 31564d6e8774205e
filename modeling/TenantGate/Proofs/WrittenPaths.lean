import Mathlib.Data.List.Flatten
import TenantGate.Proofs.UrlPaths
/-!
# Paths that are written

A path that was written once is written again as it is, and a path text without dot segments and
backslashes is only encoded.  A backslash is lost, for it separates segments as a slash does.
-/

namespace TenantGate
namespace Url

theorem keepsBytes_isPathChar : Percent.KeepsBytes isPathChar where
  percent := by decide
  digit c hc := Percent.forall_digit (P := fun c => isPathChar c = true) (by decide) hc

/-- The segments of a path text that starts with a slash, as they are entered. -/
def encodedSegments (special : Bool) (s : List Char) : List (List Char) :=
  (s.splitOnP (isSlash special)).map (Percent.encode isPathChar)

theorem encodedSegments_ne_nil (special : Bool) (s : List Char) : encodedSegments special s ≠ [] := by
  simp [encodedSegments]

theorem writePath_slash {special : Bool} {s : List Char} (hs : ∀ c ∈ s, isDropped c = false) :
    writePath special ('/' :: s)
      = String.ofList (enterAll ['/'] (encodedSegments special s)).reverse := by
  have hkept : ('/' :: s).filter (!isDropped ·) = '/' :: s := by
    rw [List.filter_eq_self]
    intro c hc
    rcases List.mem_cons.1 hc with rfl | hc
    · decide
    · rw [hs c hc]
      rfl
  rw [writePath, hkept]
  rfl

theorem exists_writePath (special : Bool) (text : List Char) : ∃ s, writePath special text
    = String.ofList (enterAll ['/'] (encodedSegments special s)).reverse := by
  exact ⟨_, rfl⟩

theorem not_mem_of_mem_encodedSegments {special : Bool} {s x : List Char}
    (hx : x ∈ encodedSegments special s) : ∀ c ∈ x, isSlash special c = false := by
  obtain ⟨y, hy, rfl⟩ := List.mem_map.1 hx
  intro c hc
  rcases Percent.mem_encode hc with ⟨hmem, _⟩ | rfl | hdigit
  · exact not_of_mem_splitOnP y hy c hmem
  · cases special <;> decide
  · cases special
    · exact Percent.forall_digit (P := fun c => isSlash false c = false) (by decide) hdigit
    · exact Percent.forall_digit (P := fun c => isSlash true c = false) (by decide) hdigit

theorem slash_not_mem {x : List Char} (hx : ∀ c ∈ x, isSlash true c = false) : '/' ∉ x := by
  intro hmem
  exact absurd (hx '/' hmem) (by decide)

theorem exists_entered (s : List Char) : ∃ out, out ≠ [] ∧
    (out.filter (· ≠ [])).Sublist ((encodedSegments true s).filter isRegular) ∧
      (enterAll ['/'] (encodedSegments true s)).reverse = slashed out := by
  have hslash : ∀ x ∈ encodedSegments true s, '/' ∉ x := fun x hx =>
    slash_not_mem (not_mem_of_mem_encodedSegments hx)
  have hfront : ∀ x ∈ ([] : List (List Char)), '/' ∉ x := by simp
  obtain ⟨out, hne, hsub, heq⟩ := enterAll_sublist (encodedSegments_ne_nil true s) hslash hfront
  refine ⟨out, hne, hsub, ?_⟩
  rw [← List.reverse_reverse (slashed out), ← heq]
  rfl

/-- The path of a URL of a well-known scheme. -/
def IsWritten (path : List Char) : Prop :=
  ∃ segments, segments ≠ [] ∧ path = slashed segments ∧
    ∀ x ∈ segments, isRegular x = true ∧ ∀ c ∈ x, isSlash true c = false ∧ isPathChar c = true

theorem isWritten_writePath (text : List Char) : IsWritten (writePath true text).toList := by
  obtain ⟨s, hs⟩ := exists_writePath true text
  obtain ⟨out, hne, hsub, heq⟩ := exists_entered s
  refine ⟨out, hne, ?_, ?_⟩
  · rw [hs, String.toList_ofList, heq]
  · intro x hx
    by_cases hempty : x = []
    · subst hempty
      exact ⟨by decide, by simp⟩
    · have hmem := hsub.subset (List.mem_filter.2 ⟨hx, by simpa using hempty⟩)
      rw [List.mem_filter] at hmem
      obtain ⟨hencoded, hregular⟩ := hmem
      refine ⟨hregular, fun c hc => ⟨not_mem_of_mem_encodedSegments hencoded c hc, ?_⟩⟩
      obtain ⟨y, _, rfl⟩ := List.mem_map.1 hencoded
      exact Percent.keep_of_mem_encode keepsBytes_isPathChar hc

theorem splitOn_slashed {segments : List (List Char)} (hne : segments ≠ [])
    (hsegments : ∀ x ∈ segments, '/' ∉ x) : (slashed segments).splitOn '/' = [] :: segments := by
  induction segments with
  | nil => exact absurd rfl hne
  | cons x rest ih =>
    have hx := hsegments x List.mem_cons_self
    have hrest := fun z hz => hsegments z (List.mem_cons_of_mem x hz)
    have hcut (s : List Char) : ('/' :: s).splitOn '/' = [] :: s.splitOn '/' :=
      List.splitOn_append_cons_self [] s
    cases rest with
    | nil => simp [hcut, List.splitOn_eq_singleton hx]
    | cons y rest =>
      have hsplit := ih (List.cons_ne_nil y rest) hrest
      rw [slashed_cons, hcut] at hsplit
      rw [slashed_cons, hcut, slashed_cons, List.splitOn_append_cons_self_of_not_mem hx,
        (List.cons.inj hsplit).2]

namespace IsWritten

variable {path : List Char}

theorem exists_slash (h : IsWritten path) : ∃ s, path = '/' :: s := by
  obtain ⟨segments, hne, rfl, _⟩ := h
  obtain ⟨x, rest, rfl⟩ := List.exists_cons_of_ne_nil hne
  exact ⟨_, slashed_cons x rest⟩

theorem isPathChar_of_mem (h : IsWritten path) {c : Char} (hc : c ∈ path) :
    isPathChar c = true ∧ c ≠ '\\' := by
  obtain ⟨segments, _, rfl, hall⟩ := h
  obtain ⟨x, hx, hmem⟩ := List.mem_flatMap.1 hc
  rcases List.mem_cons.1 hmem with rfl | hmem
  · decide
  · obtain ⟨hslash, hchar⟩ := (hall x hx).2 c hmem
    refine ⟨hchar, ?_⟩
    rintro rfl
    exact absurd hslash (by decide)

theorem isRegular_of_mem (h : IsWritten path) : ∀ x ∈ path.splitOn '/', isRegular x = true := by
  obtain ⟨segments, hne, rfl, hall⟩ := h
  have hslash : ∀ x ∈ segments, '/' ∉ x := fun x hx =>
    slash_not_mem fun c hc => ((hall x hx).2 c hc).1
  rw [splitOn_slashed hne hslash]
  intro x hx
  rcases List.mem_cons.1 hx with rfl | hx
  · decide
  · exact (hall x hx).1

end IsWritten

theorem slashed_map_encode (segments : List (List Char)) :
    slashed (segments.map (Percent.encode isPathChar))
      = Percent.encode isPathChar (slashed segments) := by
  induction segments with
  | nil => rfl
  | cons x rest ih =>
    rw [List.map_cons, slashed_cons, slashed_cons, Percent.encode_cons, Percent.encode_append, ih]
    rfl

/-- Without a backslash, segments that are all regular are only encoded. -/
theorem writePath_of_regular {s : List Char} (hdropped : ∀ c ∈ s, isDropped c = false)
    (hbackslash : '\\' ∉ s) (hregular : ∀ x ∈ s.splitOn '/', isRegular x = true) :
    writePath true ('/' :: s) = String.ofList (Percent.encode isPathChar ('/' :: s)) := by
  have hsegments : encodedSegments true s = (s.splitOn '/').map (Percent.encode isPathChar) := by
    rw [encodedSegments, List.splitOn_eq_splitOnP]
    congr 1
    apply splitOnP_congr
    intro c hc
    have hne : c ≠ '\\' := fun h => hbackslash (h ▸ hc)
    simp [isSlash, hne]
  have hall : ∀ x ∈ encodedSegments true s, isRegular x = true := by
    rw [hsegments]
    intro x hx
    obtain ⟨y, hy, rfl⟩ := List.mem_map.1 hx
    rw [isRegular, Dot.isDotSegment_encode keepsBytes_isPathChar]
    exact hregular y hy
  have henter := enterAll_regular (encodedSegments_ne_nil true s) hall []
  rw [slashed_nil, List.reverse_nil, List.nil_append] at henter
  rw [writePath_slash hdropped, henter, List.reverse_reverse, hsegments, slashed_map_encode,
    slashed_splitOn]

/-- How many backslashes a text stands for. -/
def backslashes (s : List Char) : Nat := (Percent.decode s).count 0x5c

theorem backslashes_append (s : List Char) {t : List Char}
    (ht : ∀ c ∈ t.head?, Percent.digitValue? c = none) :
    backslashes (s ++ t) = backslashes s + backslashes t := by
  rw [backslashes, Percent.decode_append s ht, List.count_append]
  rfl

theorem backslashes_slash (t : List Char) : backslashes ('/' :: t) = backslashes t := by
  rw [backslashes, Percent.decode_cons (by decide), List.count_append,
    show (String.utf8EncodeChar '/').count 0x5c = 0 by decide, Nat.zero_add]
  rfl

theorem backslashes_backslash (t : List Char) : backslashes ('\\' :: t) = 1 + backslashes t := by
  rw [backslashes, Percent.decode_cons (by decide), List.count_append,
    show (String.utf8EncodeChar '\\').count 0x5c = 1 by decide]
  rfl

theorem backslashes_slashed (segments : List (List Char)) :
    backslashes (slashed segments) = (segments.flatMap Percent.decode).count 0x5c := by
  induction segments with
  | nil => rfl
  | cons x rest ih =>
    have hcut : ∀ c ∈ (slashed rest).head?, Percent.digitValue? c = none := by
      cases rest with
      | nil => simp
      | cons y rest =>
        intro c hc
        obtain rfl := Option.some.inj hc
        decide
    rw [slashed_cons, backslashes_slash, backslashes_append x hcut, ih, List.flatMap_cons,
      List.count_append]
    rfl

theorem isSlash_true_iff {c : Char} : isSlash true c = true ↔ c = '/' ∨ c = '\\' := by
  simp [isSlash]

theorem count_backslash {s : List Char} (hs : ∀ c ∈ s, isSlash true c = false) :
    s.count '\\' = 0 := by
  rw [List.count_eq_zero]
  intro hmem
  exact absurd (hs '\\' hmem) (by decide)

/-- Each backslash separates two segments, or it is encoded and stands inside of one. -/
theorem backslashes_eq (s : List Char) : backslashes s =
    ((encodedSegments true s).flatMap Percent.decode).count 0x5c + s.count '\\' := by
  induction hn : s.length using Nat.strongRecOn generalizing s with
  | ind n ih =>
    cases hfind : s.find? (isSlash true) with
    | none =>
      have hall : ∀ c ∈ s, isSlash true c = false := by
        intro c hc
        simpa using List.find?_eq_none.1 hfind c hc
      rw [encodedSegments, List.splitOnP_eq_singleton hall, count_backslash hall]
      simp [Percent.decode_encode keepsBytes_isPathChar, backslashes]
    | some c =>
      obtain ⟨hc, front, rest, rfl, hfront⟩ := List.find?_eq_some_iff_append.1 hfind
      have hclean : ∀ d ∈ front, isSlash true d = false := by
        intro d hd
        simpa using hfront d hd
      have hrest := ih rest.length (by subst hn; simp; omega) rest rfl
      have hsegments : encodedSegments true (front ++ c :: rest)
          = Percent.encode isPathChar front :: encodedSegments true rest := by
        rw [encodedSegments, List.splitOnP_append_cons_of_forall_mem hclean c hc]
        rfl
      have hcut : ∀ d ∈ (c :: rest).head?, Percent.digitValue? d = none := by
        intro d hd
        obtain rfl := Option.some.inj hd
        rcases isSlash_true_iff.1 hc with rfl | rfl <;> decide
      rw [hsegments, List.flatMap_cons, Percent.decode_encode keepsBytes_isPathChar,
        List.count_append, List.count_append, count_backslash hclean, backslashes_append front hcut]
      rcases isSlash_true_iff.1 hc with rfl | rfl
      · rw [backslashes_slash, hrest, List.count_cons_of_ne (by decide), Nat.zero_add,
          Nat.add_assoc]
        rfl
      · rw [backslashes_backslash, hrest, List.count_cons_self]
        simp only [backslashes]
        omega

theorem flatMap_filter_ne_nil (segments : List (List Char)) :
    (segments.filter (· ≠ [])).flatMap Percent.decode = segments.flatMap Percent.decode := by
  induction segments with
  | nil => rfl
  | cons x rest ih =>
    by_cases hx : x = []
    · subst hx
      rw [List.filter_cons_of_neg (by simp), ih]
      rfl
    · rw [List.filter_cons_of_pos (by simpa using hx), List.flatMap_cons, List.flatMap_cons, ih]

theorem backslashes_writePath {s : List Char} (hdropped : ∀ c ∈ s, isDropped c = false) :
    backslashes (writePath true ('/' :: s)).toList + s.count '\\' ≤ backslashes ('/' :: s) := by
  obtain ⟨out, _, hsub, heq⟩ := exists_entered s
  have hwritten : (writePath true ('/' :: s)).toList = slashed out := by
    rw [writePath_slash hdropped, String.toList_ofList, heq]
  have hkept : (out.filter (· ≠ [])).Sublist (encodedSegments true s) :=
    hsub.trans List.filter_sublist
  have hcount := (hkept.flatMap Percent.decode).count_le 0x5c
  rw [flatMap_filter_ne_nil, ← backslashes_slashed] at hcount
  rw [hwritten, backslashes_slash, backslashes_eq s]
  omega

end Url
end TenantGate
