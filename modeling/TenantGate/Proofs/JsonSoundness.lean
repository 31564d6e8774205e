import Mathlib.Data.List.TakeWhile
import TenantGate.Proofs.JsonMembers
import TenantGate.Proofs.JsonTexts
/-!
# What readers of values take

Whatever a reader takes is a writing of a tree of its type, and with what is known of the reader of
all such writings, a document is accepted exactly if it writes such a tree.
-/

namespace TenantGate
namespace Json

variable {α : Type}

theorem exists_blank (s : Bytes) : ∃ w, Blank w ∧ s = w ++ skipSpace s := by
  refine ⟨s.takeWhile isSpace, ?_, List.takeWhile_append_dropWhile.symm⟩
  intro b hb
  exact List.mem_takeWhile_imp hb

theorem skipSpace_eq_cons {s r : Bytes} {b : UInt8} (h : skipSpace s = b :: r) :
    ∃ w, Blank w ∧ s = w ++ b :: r := by
  obtain ⟨w, hw, hs⟩ := exists_blank s
  exact ⟨w, hw, h ▸ hs⟩

theorem blank_of_skipSpace {s : Bytes} (h : skipSpace s = []) : Blank s := by
  obtain ⟨w, hw, hs⟩ := exists_blank s
  rw [h, List.append_nil] at hs
  exact hs ▸ hw

/-- Whatever the reader takes writes a tree, and `decode` makes of it what the reader does. -/
def Sound (item : Reader α) (decode : Tree → Option α) : Prop :=
  ∀ s x r, item s = .ok (x, r) → ∃ v s', s = s' ++ r ∧ Writes (.value v) s' ∧ decode v = some x

theorem sound_text : Sound text Tree.text? := by
  intro s t r h
  unfold text at h
  split at h
  · next rest hs =>
    obtain ⟨w, hw, rfl⟩ := skipSpace_eq_cons hs
    obtain ⟨s', rfl, hspells⟩ := readText_eq_ok h
    exact ⟨.text t, w ++ 0x22 :: (s' ++ [0x22]), by simp, .text hw hspells, rfl⟩
  · exact absurd h (refuse_ne_ok _ _ _)

def Leads (first : Bool) (l : Bytes) : Prop :=
  if first then l = [] else ∃ w, Blank w ∧ l = w ++ [0x2c]

theorem leads_first : Leads true [] := rfl

theorem leads_comma {w : Bytes} (hw : Blank w) : Leads false (w ++ [0x2c]) := ⟨w, hw, rfl⟩

theorem hasMember_eq_false {first : Bool} {s r : Bytes} (h : hasMember first s = .ok (false, r)) :
    ∃ w rest, Blank w ∧ r = 0x7d :: rest ∧ s = w ++ r := by
  unfold hasMember at h
  split at h
  · simp [faultAt] at h
  · next rest hs =>
    obtain ⟨w, hw, rfl⟩ := skipSpace_eq_cons hs
    cases h
    exact ⟨w, rest, hw, rfl, rfl⟩
  · split at h
    · split at h <;> simp [faultOn] at h
    · split at h
      · split at h <;> simp [faultAt, faultOn] at h
      · simp [faultOn] at h

theorem hasMember_eq_true {first : Bool} {s r : Bytes} (h : hasMember first s = .ok (true, r)) :
    ∃ l w, Leads first l ∧ Blank w ∧ s = l ++ (w ++ 0x22 :: r) := by
  unfold hasMember at h
  split at h
  · simp [faultAt] at h
  · simp at h
  · next b rest _ hs =>
    obtain ⟨w, hw, rfl⟩ := skipSpace_eq_cons hs
    cases first with
    | true =>
      rw [if_pos rfl] at h
      split at h
      · next hb =>
        cases h
        exact ⟨[], w, leads_first, hw, by rw [hb, List.nil_append]⟩
      · simp [faultOn] at h
    | false =>
      rw [if_neg Bool.false_ne_true] at h
      split at h
      · next hb =>
        split at h
        · simp [faultAt] at h
        · next rest' hs' =>
          obtain ⟨w', hw', rfl⟩ := skipSpace_eq_cons hs'
          cases h
          exact ⟨w ++ [0x2c], w', leads_comma hw, hw', by simp [hb]⟩
        · simp [faultOn] at h
        · simp [faultOn] at h
      · simp [faultOn] at h

theorem colon_eq_ok {s r : Bytes} (h : colon s = .ok r) : ∃ w, Blank w ∧ s = w ++ 0x3a :: r := by
  unfold colon at h
  split at h
  · simp [faultAt] at h
  · next rest hs =>
    cases h
    exact skipSpace_eq_cons hs
  · simp [faultOn] at h

/-- What an object is made into whose values are decoded one by one. -/
def Tree.entries? (decode : Tree → Option α) : Tree → Option (List (String × α))
  | .object ps => ps.mapM fun p => (decode p.2).map (p.1, ·)
  | _ => none

section Entries

variable {item : Reader α} {decode : Tree → Option α}

theorem exists_member (h : Sound item decode) {first : Bool} {s s₁ s₂ s₃ s₄ : Bytes} {name : String}
    {x : α} (hmore : hasMember first s = .ok (true, s₁)) (hname : readText s₁ = .ok (name, s₂))
    (hcolon : colon s₂ = .ok s₃) (hitem : item s₃ = .ok (x, s₄)) :
    ∃ l m v, Leads first l ∧ Writes (.member (name, v)) m ∧ decode v = some x ∧
      s = l ++ (m ++ s₄) := by
  obtain ⟨l, w, hl, hw, rfl⟩ := hasMember_eq_true hmore
  obtain ⟨n, rfl, hn⟩ := readText_eq_ok hname
  obtain ⟨w', hw', rfl⟩ := colon_eq_ok hcolon
  obtain ⟨v, s', rfl, hv, hx⟩ := h _ _ _ hitem
  exact ⟨l, w ++ 0x22 :: (n ++ 0x22 :: (w' ++ 0x3a :: s')), v, hl, .pair hw hn hw' hv, hx, by simp⟩

/-- What is written of the members that are left, up to the closing bracket. -/
inductive WritesRest (decode : Tree → Option α) : Bool → Bytes → List (String × α) → Prop
  | close {first : Bool} {w : Bytes} (hw : Blank w) : WritesRest decode first w []
  | members {first : Bool} {l s w : Bytes} {p : String × Tree} {ps : List (String × Tree)}
      {xs : List (String × α)} (hl : Leads first l) (h : Writes (.members p ps) s) (hw : Blank w)
      (hxs : (p :: ps).mapM (fun q => (decode q.2).map (q.1, ·)) = some xs) :
      WritesRest decode first (l ++ (s ++ w)) xs

theorem WritesRest.cons {first : Bool} {l m rest : Bytes} {name : String} {v : Tree} {x : α}
    {xs : List (String × α)} (hl : Leads first l) (hm : Writes (.member (name, v)) m)
    (hx : decode v = some x) (h : WritesRest decode false rest xs) :
    WritesRest decode first (l ++ (m ++ rest)) ((name, x) :: xs) := by
  have hfirst : (decode (name, v).2).map ((name, v).1, ·) = some (name, x) := by rw [hx]; rfl
  cases h with
  | close hw => exact .members hl (.lastMember hm) hw (mapM_cons_eq_some.2 ⟨_, _, hfirst, rfl, rfl⟩)
  | @members l' s w p ps _ hl' hs hw hxs =>
    obtain ⟨w', hw', rfl⟩ := hl'
    have hmembers := WritesRest.members hl (.moreMembers hm hw' hs) hw
      (mapM_cons_eq_some.2 ⟨_, _, hfirst, hxs, rfl⟩)
    simpa using hmembers

theorem entries_eq_ok (h : Sound item decode) {fuel s r : Bytes} {first : Bool}
    {xs : List (String × α)} (hread : entries item fuel first s = .ok (xs, r)) :
    ∃ rest s', r = 0x7d :: rest ∧ s = s' ++ r ∧ WritesRest decode first s' xs := by
  induction fuel generalizing first s xs with
  | nil => simp [entries, faultAt] at hread
  | cons b fuel ih =>
    obtain ⟨⟨more, s₁⟩, hmore, hread⟩ := Result.bind_eq_ok.1 hread
    cases more with
    | false =>
      obtain ⟨rfl, rfl⟩ := Prod.mk.inj (Result.pure_eq_ok.1 hread)
      obtain ⟨w, rest, hw, rfl, rfl⟩ := hasMember_eq_false hmore
      exact ⟨rest, w, rfl, rfl, .close hw⟩
    | true =>
      obtain ⟨⟨name, s₂⟩, hname, hread⟩ := Result.bind_eq_ok.1 hread
      obtain ⟨s₃, hcolon, hread⟩ := Result.bind_eq_ok.1 hread
      obtain ⟨⟨x, s₄⟩, hitem, hread⟩ := Result.bind_eq_ok.1 hread
      obtain ⟨⟨xs', r'⟩, hothers, hread⟩ := Result.bind_eq_ok.1 hread
      obtain ⟨rfl, rfl⟩ := Prod.mk.inj (Result.pure_eq_ok.1 hread)
      obtain ⟨l, m, v, hl, hm, hx, rfl⟩ := exists_member h hmore hname hcolon hitem
      obtain ⟨rest, s', rfl, rfl, hrest⟩ := ih hothers
      exact ⟨rest, l ++ (m ++ s'), rfl, by simp, .cons hl hm hx hrest⟩

theorem sound_map (h : Sound item decode) : Sound (map item) (Tree.entries? decode) := by
  intro s xs r hread
  unfold map at hread
  split at hread
  · next r₁ hs =>
    obtain ⟨w, hw, rfl⟩ := skipSpace_eq_cons hs
    obtain ⟨⟨xs', r₂⟩, hentries, hread⟩ := Result.bind_eq_ok.1 hread
    obtain ⟨r₃, hclose, hread⟩ := Result.bind_eq_ok.1 hread
    obtain ⟨rfl, rfl⟩ := Prod.mk.inj (Result.pure_eq_ok.1 hread)
    obtain ⟨rest, s', rfl, rfl, hwrites⟩ := entries_eq_ok h hentries
    rw [closeObject_brace] at hclose
    cases hclose
    cases hwrites with
    | close hw' => exact ⟨.object [], _, by simp, .emptyObject hw hw', rfl⟩
    | @members l s w' p ps _ hl hs' hw' hxs =>
      obtain rfl : l = [] := hl
      exact ⟨.object (p :: ps), _, by simp, .object hw hs' hw', hxs⟩
  · exact absurd hread (refuse_ne_ok _ _ _)

theorem reads_map (h : ∀ v x, decode v = some x → Reads item v x) (v : Tree)
    (xs : List (String × α)) (hxs : v.entries? decode = some xs) : Reads (map item) v xs := by
  cases v with
  | object ps =>
    intro s hs rest _
    obtain ⟨r, hr, hentries⟩ := entries_of_object h hs hxs rest
    simp only [map, hr, hentries, bind, Except.bind, closeObject_brace]
    rfl
  | null | boolean | number | text | list => simp [Tree.entries?] at hxs

end Entries

/-- A document is accepted if it writes a tree of the type of the reader, and in no other case. -/
theorem document_eq_ok_iff {item : Reader α} {decode : Tree → Option α}
    (hreads : ∀ v x, decode v = some x → Reads item v x) (hsound : Sound item decode) {doc : Bytes}
    {x : α} : document item doc = .ok x ↔
      ∃ v s w, doc = s ++ w ∧ Writes (.value v) s ∧ Blank w ∧ decode v = some x := by
  constructor
  · intro h
    obtain ⟨r, hitem, hr⟩ := document_eq_ok h
    obtain ⟨v, s, rfl, hv, hx⟩ := hsound _ _ _ hitem
    exact ⟨v, s, r, rfl, hv, blank_of_skipSpace hr, hx⟩
  · rintro ⟨v, s, w, rfl, hv, hw, hx⟩
    exact document_of_reads (hreads v x hx) hv hw

end Json
end TenantGate
