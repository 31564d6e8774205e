import TenantGate.Proofs.JsonKinds
/-!
# What records hold

Each part of a record is what the member of its name says, or what it was before if the object has
no such member.  A record that has been read from a list took as many elements as it has members.
-/

namespace TenantGate
namespace Json

variable {α β σ τ : Type}

/-- A part of a record that one member sets and the others leave as it is. -/
structure Sets (members : List (Member σ)) (name : String) (part : σ → β)
    (tells : Form → β → Prop) : Prop where
  known : name ∈ members.map (·.name)
  reads : ∀ m ∈ members,
    m.name = name ∧ (∀ draft, Yields (m.read draft) fun v d => tells v (part d)) ∨
      m.name ≠ name ∧ ∀ draft, Yields (m.read draft) fun _ d => part d = part draft

/-- What the members of an object tell of a part of a record that was filled from them. -/
structure Form.Tells (ms : List (Bytes × Form)) (name : String) (tells : Form → β → Prop)
    (before after : β) : Prop where
  told : ∀ m ∈ ms, Form.Named name m → tells m.2 after
  kept : after = before ∨ ∃ m ∈ ms, Form.Named name m

section OptionalMember

variable {item : Reader α} {tells : Form → α → Prop} (h : Yields item tells) {name : String}
  {set : σ → Option α → σ}
include h

theorem yields_optionalMember (draft : σ) :
    Yields ((optionalMember name item set).read draft) fun v d =>
      ∃ x, d = set draft x ∧ v.IsNullOr tells x := by
  intro s d r hread
  obtain ⟨⟨x, t⟩, hx, heq⟩ := Result.map_eq_ok.1 hread
  obtain ⟨rfl, rfl⟩ := Prod.mk.inj heq
  obtain ⟨v, s', hs, hv, htells⟩ := yields_optional h s x t hx
  exact ⟨v, s', hs, hv, x, rfl, htells⟩

theorem optionalMember_sets {part : σ → Option α} (hpart : ∀ d x, part (set d x) = x) (draft : σ) :
    Yields ((optionalMember name item set).read draft) fun v d => v.IsNullOr tells (part d) := by
  refine (yields_optionalMember h draft).imp ?_
  rintro v _ ⟨x, rfl, hx⟩
  rwa [hpart]

theorem optionalMember_keeps {part : σ → β} (hpart : ∀ d x, part (set d x) = part d) (draft : σ) :
    Yields ((optionalMember name item set).read draft) fun _ d => part d = part draft := by
  refine (yields_optionalMember h draft).imp ?_
  rintro v _ ⟨x, rfl, -⟩
  exact hpart draft x

end OptionalMember

theorem Shown.exists_bare {doc : Bytes} {v : Form} (h : Shown doc v) :
    ∃ s rest, Shows (.bare v) s ∧ skipSpace doc = s ++ rest := by
  obtain ⟨_, rest, rfl, hv, _⟩ := h
  cases hv with
  | blank hw hv => exact ⟨_, rest, hv, hv.skipSpace_value hw rest⟩

theorem Shown.skipSpace_object {doc : Bytes} {ms : List (Bytes × Form)}
    (h : Shown doc (.object ms)) : ∃ t, skipSpace doc = 0x7b :: t := by
  obtain ⟨_, _, hs, hskip⟩ := h.exists_bare
  cases hs
  exact ⟨_, hskip⟩

theorem Shown.skipSpace_list {doc : Bytes} {vs : List Form} (h : Shown doc (.list vs)) :
    ∃ t, skipSpace doc = 0x5b :: t := by
  obtain ⟨_, _, hs, hskip⟩ := h.exists_bare
  cases hs
  exact ⟨_, hskip⟩

section Fill

variable {members : List (Member σ)} {name : String} {part : σ → β} {tells : Form → β → Prop}
  (h : Sets members name part tells)
include h

/-- One member of an object, and what it makes of the part. -/
theorem sets_of_takes {seen seen' : List String} {draft draft' : σ} {found : String}
    {n s r : Bytes} (hn : Spells found.toList n)
    (htakes : Takes members seen draft found s seen' draft' r) :
    ∃ v s', s = s' ++ r ∧ Shows (.value v) s' ∧ seen ⊆ seen' ∧
      (Form.Named name (n, v) ∧ tells v (part draft') ∧ name ∉ seen ∧ name ∈ seen' ∨
        ¬Form.Named name (n, v) ∧ part draft' = part draft) := by
  cases htakes with
  | unknown hfind hread =>
    obtain ⟨v, s', hs, hv, _⟩ := takesOnly_ignored _ _ _ hread
    refine ⟨v, s', hs, hv, List.Subset.refl _, .inr ⟨fun hnamed => ?_, rfl⟩⟩
    obtain ⟨m, hm, hname⟩ := List.mem_map.1 h.known
    have hfound : m.name = found := hname.trans (hnamed.text_inj hn)
    exact absurd (by simpa using hfound) (List.find?_eq_none.1 hfind m hm)
  | @known m _ _ hfind hnew hread =>
    have hmem := List.mem_of_find?_eq_some hfind
    have hfound : m.name = found := by simpa using List.find?_some hfind
    rcases h.reads m hmem with ⟨hname, hsets⟩ | ⟨hname, hkeeps⟩
    · obtain ⟨v, s', hs, hv, htells⟩ := hsets draft _ _ _ hread
      obtain rfl : found = name := hfound.symm.trans hname
      exact ⟨v, s', hs, hv, List.subset_cons_self _ _,
        .inl ⟨hn, htells, hnew, List.mem_cons_self⟩⟩
    · obtain ⟨v, s', hs, hv, hkept⟩ := hkeeps draft _ _ _ hread
      refine ⟨v, s', hs, hv, List.subset_cons_self _ _, .inr ⟨fun hnamed => hname ?_, hkept⟩⟩
      exact hfound.trans (hn.text_inj hnamed)

/-- After a member of the name there is no other, and so the part stays what it said. -/
theorem fill_tells {fuel s r : Bytes} {first : Bool} {seen : List String} {draft d : σ}
    (hread : fill members fuel first seen draft s = .ok (d, r)) :
    ∃ ms s' rest, r = 0x7d :: rest ∧ s = s' ++ r ∧ Shows (.members first ms) s' ∧
      Form.Tells ms name tells (part draft) (part d) ∧
      (name ∈ seen → part d = part draft ∧ ∀ m ∈ ms, ¬Form.Named name m) := by
  induction fuel generalizing first seen draft s with
  | nil => simp [fill, faultAt] at hread
  | cons b fuel ih =>
    rcases fill_eq_ok hread with
      ⟨hmore, rfl⟩ | ⟨s₁, found, s₂, s₃, seen', draft', t, hmore, hname, hcolon, htakes, hnext⟩
    · obtain ⟨w, rest, hw, rfl, rfl⟩ := hasMember_eq_false hmore
      exact ⟨[], w, rest, rfl, rfl, .noMember hw, ⟨by simp, .inl rfl⟩, by simp⟩
    · obtain ⟨l, w, hl, hw, rfl⟩ := hasMember_eq_true hmore
      obtain ⟨n, rfl, hn⟩ := readText_eq_ok hname
      obtain ⟨w', hw', rfl⟩ := colon_eq_ok hcolon
      obtain ⟨v, s', rfl, hv, hseen, hmember⟩ := sets_of_takes h hn htakes
      obtain ⟨ms, s'', rest, rfl, rfl, hms, htells, hnew⟩ := ih hnext
      refine ⟨(n, v) :: ms, _, rest, rfl, by simp, .member hl hw hn.quoted hw' hv hms, ?_⟩
      rcases hmember with ⟨hnamed, hv, hfirst, hlater⟩ | ⟨hother, hkept⟩
      · obtain ⟨hsame, hnone⟩ := hnew hlater
        refine ⟨⟨List.forall_mem_cons.2 ⟨fun _ => hsame ▸ hv, fun m hm hm' => ?_⟩, ?_⟩, ?_⟩
        · exact absurd hm' (hnone m hm)
        · exact .inr ⟨_, List.mem_cons_self, hnamed⟩
        · exact fun hmem => absurd hmem hfirst
      · refine ⟨⟨List.forall_mem_cons.2 ⟨fun hnamed => absurd hnamed hother, htells.told⟩, ?_⟩,
          fun hmem => ?_⟩
        · rcases htells.kept with hsame | ⟨m, hm, hnamed⟩
          · exact .inl (hsame.trans hkept)
          · exact .inr ⟨m, List.mem_cons_of_mem _ hm, hnamed⟩
        · obtain ⟨hsame, hnone⟩ := hnew (hseen hmem)
          exact ⟨hsame.trans hkept, List.forall_mem_cons.2 ⟨hother, hnone⟩⟩

theorem tells_of_document {rname : String} {draft d : σ} {doc : Bytes}
    (hdoc : document (record rname members draft .ok) doc = .ok d) {ms : List (Bytes × Form)}
    (hshown : Shown doc (.object ms)) : Form.Tells ms name tells (part draft) (part d) := by
  obtain ⟨r, hread, hr⟩ := document_eq_ok hdoc
  obtain ⟨t, d', t', hfinish, ⟨hs, -⟩ | ⟨hs, hclose, hfill⟩⟩ := record_eq_ok hread
  · obtain ⟨t', ht'⟩ := hshown.skipSpace_object
    rw [ht'] at hs
    cases hs
  · obtain rfl := Except.ok.inj hfinish
    obtain ⟨w, hw, rfl⟩ := skipSpace_eq_cons hs
    obtain ⟨ms', s', rest, rfl, rfl, hms, htells, _⟩ := fill_tells h hfill
    obtain rfl : rest = r := Except.ok.inj ((closeObject_brace rest).symm.trans hclose)
    have hshown' : Shown (w ++ 0x7b :: (s' ++ 0x7d :: rest)) (.object ms') :=
      ⟨_, rest, by simp, .blank hw (.object hms), blank_of_skipSpace hr⟩
    obtain rfl : ms = ms' := Form.object.inj (hshown.unique hshown')
    exact htells

end Fill

/-- What `m` reads, `k` reads too, and as far. -/
def Member.Covers (k : Member τ) (m : Member σ) : Prop :=
  ∀ draft draft' s d r, m.read draft s = .ok (d, r) → ∃ d', k.read draft' s = .ok (d', r)

/-- A list that holds the members of one record is too short for a record with one more. -/
theorem fillInOrder_ne_ok {ms : List (Member σ)} {ks : List (Member τ)} {k : Member τ}
    (hcovers : List.Forall₂ (fun m k => k.Covers m) ms ks)
    (hms : ∀ m ∈ ms, ∀ d, m.absent d = none) (hk : ∀ d, k.absent d = none) {wanted wanted' : String}
    {read : Nat} {draft d : σ} {draft' : τ} {s r t : Bytes}
    (hfill : fillInOrder wanted read ms draft s = .ok (d, r)) (hclose : closeList r = .ok t)
    (x : τ × Bytes) : fillInOrder wanted' read (ks ++ [k]) draft' s ≠ .ok x := by
  induction hcovers generalizing read draft draft' s with
  | nil =>
    cases hfill
    obtain ⟨w, hw, rfl⟩ := closeList_eq_ok hclose
    intro h
    simp only [List.nil_append, fillInOrder, hasElement_end hw, Result.ok_bind,
      Bool.false_eq_true, if_false, hk] at h
    exact faultAfterList_ne_ok _ _ _ h
  | @cons m k' ms ks hread _ ih =>
    intro h
    simp only [fillInOrder] at hfill
    obtain ⟨⟨more, s₁⟩, hmore, hfill⟩ := Result.bind_eq_ok.1 hfill
    cases more with
    | false =>
      simp only [Bool.false_eq_true, if_false, hms m List.mem_cons_self] at hfill
      exact faultAfterList_ne_ok _ _ _ hfill
    | true =>
      obtain ⟨⟨d₁, s₂⟩, hitem, hfill⟩ := Result.bind_eq_ok.1 hfill
      obtain ⟨d', hitem'⟩ := hread draft draft' s₁ d₁ s₂ hitem
      simp only [List.cons_append, fillInOrder, hmore, Result.ok_bind, if_true, hitem'] at h
      exact ih (fun m hm => hms m (List.mem_cons_of_mem _ hm)) hfill h

namespace Value

theorem read_of_text {s r : Bytes} {t : String} (h : Json.text s = .ok (t, r)) (depth : Nat) :
    read depth s = .ok (.text t, r) := by
  unfold Json.text at h
  split at h
  · next s' hs =>
    rw [read_of_head hs (by decide) (by decide)]
    simp only [readScalar, h]
    rfl
  · exact absurd h (refuse_ne_ok _ _ _)

theorem exists_read_of_number {wanted : String} {check : Number → Except Cause α} {s r : Bytes}
    {y : α} (h : Json.number wanted check s = .ok (y, r)) (depth : Nat) :
    ∃ x, read depth s = .ok (x, r) := by
  obtain ⟨positive, t, x, hstart, hread, _⟩ := number_eq_ok h
  refine ⟨.number x, ?_⟩
  rcases hstart with ⟨rfl, hs⟩ | ⟨rfl, hs, d, r', rfl, hd⟩
  · rw [read_of_head hs (by decide) (by decide)]
    simp only [readScalar, hread]
    rfl
  · have hne : d ≠ 0x6e ∧ d ≠ 0x74 ∧ d ≠ 0x66 ∧ d ≠ 0x2d ∧ d ≠ 0x5b ∧ d ≠ 0x7b := by
      refine ⟨?_, ?_, ?_, ?_, ?_, ?_⟩ <;> exact ne_of_isDigit hd (by decide)
    rw [read_of_head hs hne.2.2.2.2.1 hne.2.2.2.2.2]
    simp only [readScalar, hne, hd, if_true, if_false, hread]
    rfl

theorem exists_read_of_optional {item : Reader α} (hitem : PassesBlanks item) {depth : Nat}
    (h : ∀ s y r, item s = .ok (y, r) → ∃ x, read depth s = .ok (x, r)) {s r : Bytes} {y : Option α}
    (hread : optional item s = .ok (y, r)) : ∃ x, read depth s = .ok (x, r) := by
  unfold optional at hread
  split at hread
  · next t hs =>
    obtain ⟨t', hword, heq⟩ := Result.map_eq_ok.1 hread
    obtain ⟨_, rfl⟩ := Prod.mk.inj heq
    refine ⟨.null, ?_⟩
    rw [read_of_head hs (by decide) (by decide)]
    simp only [readScalar, hword]
    rfl
  · obtain ⟨⟨z, t⟩, hz, heq⟩ := Result.map_eq_ok.1 hread
    obtain ⟨_, rfl⟩ := Prod.mk.inj heq
    rw [hitem] at hz
    exact h s z t hz

end Value

end Json
end TenantGate
