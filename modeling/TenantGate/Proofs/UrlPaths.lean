import TenantGate.Proofs.DotForms
/-!
# The paths of URLs

A written path is a list of segments with a slash before each of them.  Each segment is entered in
turn: dot segments take away what was entered before them, and all others stay as they are.
-/

namespace TenantGate
namespace Url

def slashed (segments : List (List Char)) : List Char := segments.flatMap ('/' :: ·)

@[simp] theorem slashed_nil : slashed [] = [] := rfl

@[simp] theorem slashed_cons (x : List Char) (segments : List (List Char)) :
    slashed (x :: segments) = '/' :: (x ++ slashed segments) :=
  List.flatMap_cons

@[simp] theorem slashed_append (front back : List (List Char)) :
    slashed (front ++ back) = slashed front ++ slashed back :=
  List.flatMap_append

theorem slashed_splitOn (s : List Char) : slashed (s.splitOn '/') = '/' :: s := by
  induction s with
  | nil => rfl
  | cons c s ih =>
    rw [List.splitOn_cons_eq_if_modifyHead]
    by_cases hc : c = '/'
    · subst hc
      rw [if_pos (by decide), slashed_cons, ih]
      rfl
    · rw [if_neg (by simpa using hc)]
      cases hs : s.splitOn '/' with
      | nil => exact absurd hs (List.splitOn_ne_nil '/' s)
      | cons x segments =>
        rw [hs, slashed_cons] at ih
        rw [List.modifyHead_cons, slashed_cons, List.cons_append, (List.cons.inj ih).2]

theorem not_of_mem_splitOnP {α : Type} {p : α → Bool} {s : List α} :
    ∀ x ∈ s.splitOnP p, ∀ c ∈ x, p c = false := by
  induction s with
  | nil => simp
  | cons d s ih =>
    rw [List.splitOnP_cons_eq_if_modifyHead]
    by_cases hd : p d = true
    · rw [if_pos hd]
      simpa using ih
    · rw [if_neg hd]
      cases hs : s.splitOnP p with
      | nil => exact absurd hs (List.splitOnP_ne_nil p s)
      | cons y segments =>
        rw [hs] at ih
        simp only [List.modifyHead_cons, List.forall_mem_cons] at ih ⊢
        exact ⟨⟨by simpa using hd, ih.1⟩, ih.2⟩

theorem splitOnP_congr {α : Type} {p q : α → Bool} {s : List α} (h : ∀ c ∈ s, p c = q c) :
    s.splitOnP p = s.splitOnP q := by
  induction s with
  | nil => rfl
  | cons c s ih =>
    rw [List.splitOnP_cons_eq_if_modifyHead, List.splitOnP_cons_eq_if_modifyHead,
      h c List.mem_cons_self, ih fun d hd => h d (List.mem_cons_of_mem c hd)]

theorem leave_slash (before : List Char) : leave ('/' :: before) =
    (if before.contains '/' = true ∧ (!isDrive (before.takeWhile (· != '/')).reverse) = true
      then before
      else '/' :: before).dropWhile (· != '/') :=
  rfl

theorem leave_slashed {front : List (List Char)} (hfront : ∀ x ∈ front, '/' ∉ x) :
    ∃ kept, kept.Sublist front ∧
      leave ('/' :: (slashed front).reverse) = '/' :: (slashed kept).reverse := by
  rw [leave_slash]
  split
  · next hleaves =>
    rcases List.eq_nil_or_concat front with rfl | ⟨kept, last, rfl⟩
    · simp at hleaves
    · rw [List.concat_eq_append] at hfront ⊢
      refine ⟨kept, List.sublist_append_left kept [last], ?_⟩
      have hlast : ∀ c ∈ last.reverse, (c != '/') = true := by
        intro c hc
        rw [bne_iff_ne]
        rintro rfl
        exact hfront last (by simp) (List.mem_reverse.1 hc)
      have hform : (slashed (kept ++ [last])).reverse
          = last.reverse ++ '/' :: (slashed kept).reverse := by
        simp
      rw [hform, List.dropWhile_append_of_pos hlast, List.dropWhile_cons_of_neg (by decide)]
  · exact ⟨front, List.Sublist.refl _, List.dropWhile_cons_of_neg (by decide)⟩

/-- A segment that is not resolved. -/
def isRegular (segment : List Char) : Bool := !DotSegment.isDotSegment segment

theorem isRegular_iff {x : List Char} :
    isRegular x = true ↔ isDoubleDot x = false ∧ isSingleDot x = false := by
  have h := Dot.isDotSegment_iff (s := x)
  cases hd : isDoubleDot x <;> cases hs : isSingleDot x <;> simp_all [isRegular]

theorem enter_regular {x : List Char} (hx : isRegular x = true) (front : List (List Char)) :
    enter ('/' :: (slashed front).reverse) x false = (slashed (front ++ [x])).reverse ∧
      enter ('/' :: (slashed front).reverse) x true
        = '/' :: (slashed (front ++ [x])).reverse := by
  obtain ⟨hdouble, hsingle⟩ := isRegular_iff.1 hx
  simp [enter, hdouble, hsingle]

/-- A segment that is resolved adds nothing, and ends in a slash. -/
theorem enter_irregular {x : List Char} (hx : isRegular x = false) {front : List (List Char)}
    (hfront : ∀ x ∈ front, '/' ∉ x) (slash : Bool) :
    ∃ kept, kept.Sublist front ∧
      enter ('/' :: (slashed front).reverse) x slash = '/' :: (slashed kept).reverse := by
  unfold enter
  by_cases hdouble : isDoubleDot x = true
  · obtain ⟨kept, hkept, heq⟩ := leave_slashed hfront
    refine ⟨kept, hkept, ?_⟩
    rw [if_pos hdouble]
    simp [heq]
  · have hsingle : isSingleDot x = true := by
      by_cases hsingle : isSingleDot x = true
      · exact hsingle
      · rw [isRegular_iff.2 ⟨by simpa using hdouble, by simpa using hsingle⟩] at hx
        cases hx
    refine ⟨front, List.Sublist.refl _, ?_⟩
    rw [if_neg hdouble, if_pos hsingle]
    rfl

theorem enterAll_regular {segments : List (List Char)} (hne : segments ≠ [])
    (hregular : ∀ x ∈ segments, isRegular x = true) (front : List (List Char)) :
    enterAll ('/' :: (slashed front).reverse) segments = (slashed (front ++ segments)).reverse := by
  induction segments generalizing front with
  | nil => exact absurd rfl hne
  | cons x rest ih =>
    obtain ⟨hlast, hslash⟩ := enter_regular (hregular x List.mem_cons_self) front
    cases rest with
    | nil => exact hlast
    | cons y rest =>
      rw [enterAll, hslash, ih (List.cons_ne_nil y rest)
        fun z hz => hregular z (List.mem_cons_of_mem x hz), List.append_assoc]
      · rfl
      · exact List.cons_ne_nil y rest

/-- Whatever is entered, the segments of the path are some of the regular ones, in order, and
perhaps an empty one at the end. -/
theorem enterAll_sublist {segments : List (List Char)} (hne : segments ≠ [])
    (hsegments : ∀ x ∈ segments, '/' ∉ x) {front : List (List Char)}
    (hfront : ∀ x ∈ front, '/' ∉ x) :
    ∃ out, out ≠ [] ∧ (out.filter (· ≠ [])).Sublist (front ++ segments.filter isRegular) ∧
      enterAll ('/' :: (slashed front).reverse) segments = (slashed out).reverse := by
  induction segments generalizing front with
  | nil => exact absurd rfl hne
  | cons x rest ih =>
    have hx := hsegments x List.mem_cons_self
    have hrest := fun z hz => hsegments z (List.mem_cons_of_mem x hz)
    by_cases hregular : isRegular x = true
    · obtain ⟨hlast, hslash⟩ := enter_regular hregular front
      rw [List.filter_cons_of_pos hregular]
      cases rest with
      | nil => exact ⟨front ++ [x], by simp, List.filter_sublist, hlast⟩
      | cons y rest =>
        have hfront' : ∀ z ∈ front ++ [x], '/' ∉ z := by
          intro z hz
          rcases List.mem_append.1 hz with hz | hz
          · exact hfront z hz
          · exact List.mem_singleton.1 hz ▸ hx
        obtain ⟨out, hout, hsub, heq⟩ := ih (List.cons_ne_nil y rest) hrest hfront'
        refine ⟨out, hout, by simpa using hsub, ?_⟩
        rw [enterAll, hslash, heq]
        exact List.cons_ne_nil y rest
    · have hirregular : isRegular x = false := by simpa using hregular
      rw [List.filter_cons_of_neg hregular]
      cases rest with
      | nil =>
        obtain ⟨kept, hkept, heq⟩ := enter_irregular hirregular hfront false
        refine ⟨kept ++ [[]], by simp, ?_, ?_⟩
        · simpa using List.filter_sublist.trans hkept
        · rw [enterAll, heq]
          simp
      | cons y rest =>
        obtain ⟨kept, hkept, hslash⟩ := enter_irregular hirregular hfront true
        obtain ⟨out, hout, hsub, heq⟩ := ih (List.cons_ne_nil y rest) hrest
          fun z hz => hfront z (hkept.subset hz)
        refine ⟨out, hout, hsub.trans (hkept.append (List.Sublist.refl _)), ?_⟩
        rw [enterAll, hslash, heq]
        exact List.cons_ne_nil y rest

end Url
end TenantGate
