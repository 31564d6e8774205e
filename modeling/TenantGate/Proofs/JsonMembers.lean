import TenantGate.Proofs.JsonValues
/-!
# What objects say

What an object says about a name does not depend on how it is written, and a record whose members
may be null is read from any writing of it.
-/

namespace TenantGate
namespace Json

variable {α σ β : Type}

def Tree.nullable? (decode : Tree → Option α) : Tree → Option (Option α)
  | .null => some none
  | v => (decode v).map some

/-- What an object says about a name: nothing if there is no such member or if it is null. -/
def member? (decode : Tree → Option α) (ps : List (String × Tree)) (name : String) :
    Option (Option α) :=
  match ps.lookup name with
  | none => some none
  | some v => v.nullable? decode

theorem reads_nullable {item : Reader α} (hitem : PassesBlanks item) {decode : Tree → Option α}
    (hdecode : ∀ v x, decode v = some x → Reads item v x) {v : Tree} {x : Option α}
    (h : v.nullable? decode = some x) : Reads (optional item) v x := by
  by_cases hv : v = .null
  · subst hv
    obtain rfl := Option.some.inj h
    exact reads_optional_null item
  · have hmap : v.nullable? decode = (decode v).map some := by
      cases v <;> first | rfl | exact absurd rfl hv
    rw [hmap] at h
    obtain ⟨y, hy, rfl⟩ := Option.map_eq_some_iff.1 h
    exact reads_optional hitem hv (hdecode v y hy)

theorem reads_optionalMember {item : Reader α} (hitem : PassesBlanks item)
    {decode : Tree → Option α} (hdecode : ∀ v x, decode v = some x → Reads item v x)
    (name : String) (set : σ → Option α → σ) {v : Tree} {x : Option α}
    (h : v.nullable? decode = some x) (draft : σ) :
    Reads ((optionalMember name item set).read draft) v (set draft x) := by
  intro s hs rest hrest
  simp only [optionalMember, reads_nullable hitem hdecode h s hs rest hrest]
  rfl

theorem fits_optional (set : σ → Option α → σ) {members : List (Member σ)}
    {effect : String × Tree → σ → σ} {name : String} {item : Reader α}
    (hfind : members.find? (·.name == name) = some (optionalMember name item set))
    (hitem : PassesBlanks item) {decode : Tree → Option α}
    (hdecode : ∀ v x, decode v = some x → Reads item v x) {v : Tree} {x : Option α}
    (hv : v.nullable? decode = some x) (heffect : ∀ d, effect (name, v) d = set d x) :
    Fits members effect (name, v) := by
  simp only [Fits, hfind]
  intro draft
  rw [heffect draft]
  exact reads_optionalMember hitem hdecode name set hv draft

theorem lookup_of_mem {ps : List (String × β)} {p : String × β} (honce : Once ps p.1)
    (hp : p ∈ ps) : ps.lookup p.1 = some p.2 := by
  induction ps with
  | nil => simp at hp
  | cons q ps ih =>
    rcases List.mem_cons.1 hp with rfl | hp
    · exact List.lookup_cons_self
    · have hne : p.1 ≠ q.1 := by
        intro heq
        rw [heq] at honce
        exact honce.notMem_tail (List.mem_map.2 ⟨p, hp, heq⟩)
      rw [List.lookup_cons, beq_eq_false_iff_ne.2 hne]
      exact ih honce.tail hp

theorem lookup_eq_none {ps : List (String × β)} {name : String} (h : name ∉ ps.map (·.1)) :
    ps.lookup name = none := by
  rw [List.lookup_eq_none_iff]
  intro p hp
  rw [bne_iff_ne]
  intro heq
  exact h (List.mem_map.2 ⟨p, hp, heq.symm⟩)

theorem foldl_lookup (effect : String × Tree → σ → σ) (part : σ → β) (name : String) {f : Tree → β}
    (hself : ∀ v d, part (effect (name, v) d) = f v)
    (hother : ∀ p d, p.1 ≠ name → part (effect p d) = part d) {ps : List (String × Tree)}
    (honce : Once ps name) (d : σ) :
    part (ps.foldl (fun d p => effect p d) d) = ((ps.lookup name).map f).getD (part d) := by
  induction ps generalizing d with
  | nil => rfl
  | cons p ps ih =>
    rw [List.foldl_cons, ih honce.tail, List.lookup_cons]
    by_cases hname : p.1 = name
    · obtain ⟨n, v⟩ := p
      obtain rfl : n = name := hname
      rw [lookup_eq_none honce.notMem_tail]
      simp [hself]
    · rw [beq_eq_false_iff_ne.2 (Ne.symm hname), hother p d hname]

/-- A known member of an object fits if it is what the object says about its name. -/
theorem nullable?_of_mem {decode : Tree → Option α} {ps : List (String × Tree)} {x : Option α}
    {p : String × Tree} (h : member? decode ps p.1 = some x) (honce : Once ps p.1) (hp : p ∈ ps) :
    p.2.nullable? decode = some x := by
  rw [member?, lookup_of_mem honce hp] at h
  exact h

theorem join_of_member? {decode : Tree → Option α} {ps : List (String × Tree)} {x : Option α}
    {name : String} (h : member? decode ps name = some x) :
    ((ps.lookup name).map fun v => (v.nullable? decode).join).getD none = x := by
  unfold member? at h
  cases hl : ps.lookup name with
  | none =>
    rw [hl] at h
    exact Option.some.inj h
  | some v =>
    rw [hl] at h
    dsimp only at h
    simp [h]

section Members

variable {decode : Tree → Option α} {ps : List (String × Tree)} {name : String} {x : Option α}
  (h : member? decode ps name = some x) (honce : Once ps name)
include h honce

theorem fits_of_member? (set : σ → Option α → σ) {members : List (Member σ)}
    {effect : String × Tree → σ → σ} {item : Reader α}
    (hfind : members.find? (·.name == name) = some (optionalMember name item set))
    (hitem : PassesBlanks item) (hdecode : ∀ v x, decode v = some x → Reads item v x)
    (heffect : ∀ v d, effect (name, v) d = set d (v.nullable? decode).join) {v : Tree}
    (hv : (name, v) ∈ ps) : Fits members effect (name, v) := by
  have said := nullable?_of_mem h honce hv
  refine fits_optional set hfind hitem hdecode said fun d => ?_
  rw [heffect, said]
  rfl

/-- A part of a record that only one member sets is what is said about its name. -/
theorem foldl_member? (effect : String × Tree → σ → σ) (part : σ → Option α)
    (hself : ∀ v d, part (effect (name, v) d) = (v.nullable? decode).join)
    (hother : ∀ p d, p.1 ≠ name → part (effect p d) = part d) {d : σ} (hd : part d = none) :
    part (ps.foldl (fun d p => effect p d) d) = x := by
  rw [foldl_lookup effect part name hself hother honce, hd]
  exact join_of_member? h

end Members

namespace Tree

def text? : Tree → Option String
  | .text s => some s
  | _ => none

def int? : Tree → Option Int
  | .number n => n.int?
  | _ => none

def list? (decode : Tree → Option α) : Tree → Option (List α)
  | .list vs => vs.mapM decode
  | _ => none

def texts? : Tree → Option (List String)
  | .list vs => vs.mapM text?
  | _ => none

end Tree

theorem reads_text? (v : Tree) (x : String) (h : v.text? = some x) : Reads text v x := by
  cases v with
  | text s =>
    obtain rfl := Option.some.inj h
    exact reads_text s
  | null | boolean | number | list | object => simp [Tree.text?] at h

theorem reads_int? (v : Tree) (x : Int) (h : v.int? = some x) : Reads int64 v x := by
  cases v with
  | number n => exact reads_int64 h
  | null | boolean | text | list | object => simp [Tree.int?] at h

theorem reads_list? {item : Reader α} (hitem : PassesBlanks item) {decode : Tree → Option α}
    (hdecode : ∀ v x, decode v = some x → Reads item v x) (v : Tree) (xs : List α)
    (h : v.list? decode = some xs) : Reads (list item) v xs := by
  cases v with
  | list vs => exact reads_list hitem hdecode h
  | null | boolean | number | text | object => simp [Tree.list?] at h

theorem reads_texts? : ∀ v xs, v.texts? = some xs → Reads (list text) v xs :=
  reads_list? passesBlanks_text reads_text?

theorem passesBlanks_list (item : Reader α) : PassesBlanks (list item) := by
  intro s
  simp only [list, bracketed, skipSpace_idem]

end Json
end TenantGate
