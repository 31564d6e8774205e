import TenantGate.Proofs.JsonMembers
/-!
# What readers refuse

A reader of a type takes no value of another type, and a record takes no object in which such a
value stands under a name that it knows.
-/

namespace TenantGate
namespace Json

variable {α σ : Type}

/-- However a document writes the tree, the reader does not take it. -/
def Refuses (item : Reader α) (v : Tree) : Prop :=
  ∀ s, Writes (.value v) s → ∀ rest, Ends rest → ∀ p, item (s ++ rest) ≠ .ok p

/-- If the reader takes the tree, it takes all of it and nothing that follows. -/
def TakesWhole (item : Reader α) (v : Tree) : Prop :=
  ∀ s, Writes (.value v) s → ∀ rest, Ends rest → ∀ x r, item (s ++ rest) = .ok (x, r) → r = rest

theorem Refuses.takesWhole {item : Reader α} {v : Tree} (h : Refuses item v) : TakesWhole item v :=
  fun s hs rest hrest x r hread => absurd hread (h s hs rest hrest (x, r))

theorem Reads.takesWhole {item : Reader α} {v : Tree} {x : α} (h : Reads item v x) :
    TakesWhole item v := by
  intro s hs rest hrest y r hread
  rw [h s hs rest hrest] at hread
  exact (congrArg Prod.snd (Except.ok.inj hread)).symm

/-- The reader takes the trees that `decode` gives something for, and no others. -/
structure Decides (item : Reader α) (decode : Tree → Option α) : Prop where
  passesBlanks : PassesBlanks item
  reads : ∀ v x, decode v = some x → Reads item v x
  refuses : ∀ v, decode v = none → Refuses item v

theorem Decides.takesWhole {item : Reader α} {decode : Tree → Option α} (h : Decides item decode)
    (v : Tree) : TakesWhole item v := by
  cases hv : decode v with
  | none => exact (h.refuses v hv).takesWhole
  | some x => exact (h.reads v x hv).takesWhole

theorem Tree.Leads.isText {v : Tree} (h : v.Leads 0x22) : ∃ t, v = .text t := by
  cases v with
  | text t => exact ⟨t, rfl⟩
  | boolean value => cases value <;> simp [Leads] at h
  | number n => rcases h with h | h <;> exact absurd h (by decide)
  | null | list | object => simp [Leads] at h

theorem refuses_text {v : Tree} (hv : v.text? = none) : Refuses text v := by
  intro s hs rest _ p h
  obtain ⟨b, r, hb, hlead⟩ := hs.exists_lead rest
  have hquote : b ≠ 0x22 := by
    rintro rfl
    obtain ⟨t, rfl⟩ := hlead.isText
    simp [Tree.text?] at hv
  simp only [text, hb] at h
  split at h
  · next heq => exact hquote (List.cons.inj heq).1
  · exact refuse_ne_ok _ _ _ h

theorem decides_text : Decides text Tree.text? :=
  ⟨passesBlanks_text, reads_text?, fun _ => refuses_text⟩

theorem Tree.Leads.isNumber {v : Tree} {b : UInt8} (h : v.Leads b)
    (hb : b = 0x2d ∨ isDigit b = true) : ∃ n, v = .number n := by
  have other {c : UInt8} (hbc : b = c) (hc : ¬(c = 0x2d ∨ isDigit c = true)) :
      ∃ n, v = .number n := absurd (hbc ▸ hb) hc
  cases v with
  | number n => exact ⟨n, rfl⟩
  | boolean value => cases value <;> exact other h (by decide)
  | null | text | list | object => exact other h (by decide)

theorem number_eq_ok_of_numeral {wanted : String} {check : Number → Except Cause α} (n : Numeral)
    {w : Bytes} (hw : Blank w) {rest r : Bytes} {y : α}
    (h : number wanted check (w ++ n.bytes ++ rest) = .ok (y, r)) :
    ∃ x, readNumber (!n.negative) (n.magnitude ++ rest) = .ok (x, r) ∧ check x = .ok y := by
  obtain ⟨positive, t, x, hstart, hread, hcheck⟩ := number_eq_ok h
  refine ⟨x, ?_, hcheck⟩
  rcases n.skipSpace_bytes hw rest with ⟨hneg, hs⟩ | ⟨hneg, d, r', hd, hmagnitude, hs⟩
  · rcases hstart with ⟨rfl, ht⟩ | ⟨_, rfl, d, r', ht, hd⟩
    · rw [hs] at ht
      obtain ⟨_, rfl⟩ := List.cons.inj ht
      rw [hneg]
      exact hread
    · rw [hs] at ht
      exact absurd (List.cons.inj ht).1.symm (ne_of_isDigit hd (by decide))
  · rcases hstart with ⟨_, ht⟩ | ⟨rfl, rfl, _⟩
    · rw [hs] at ht
      exact absurd (List.cons.inj ht).1 (ne_of_isDigit hd (by decide))
    · rw [hs] at hread
      rw [hneg, hmagnitude]
      exact hread

def Numeral.IsWhole (n : Numeral) : Prop := n.fraction = none ∧ n.exponent = none

theorem Numeral.IsWhole.tail {n : Numeral} (h : n.IsWhole) : n.tail = [] := by
  simp [Numeral.tail, h.1, h.2]

theorem Numeral.tail_of_not_isWhole {n : Numeral} (h : ¬n.IsWhole) :
    ∃ b r, n.tail = b :: r ∧ (b = 0x2e ∨ b = 0x65 ∨ b = 0x45) := by
  obtain ⟨negative, whole, no_leading_zero, fraction, exponent⟩ := n
  cases fraction with
  | some d => exact ⟨0x2e, _, rfl, .inl rfl⟩
  | none =>
    cases exponent with
    | none => exact absurd ⟨rfl, rfl⟩ h
    | some e =>
      refine ⟨_, _, rfl, ?_⟩
      cases e.upper <;> decide

theorem readAfterDigits_isDouble {b : UInt8} (hb : b = 0x2e ∨ b = 0x65 ∨ b = 0x45) {positive : Bool}
    {n surplus : Nat} {s r : Bytes} {x : Number}
    (h : readAfterDigits positive n surplus (b :: s) = .ok (x, r)) : x.IsDouble := by
  rw [readAfterDigits_cons] at h
  by_cases hpoint : b = 0x2e
  · rw [if_pos hpoint] at h
    exact (readFraction_isScaled h).isDouble
  · have hletter : b = 0x65 ∨ b = 0x45 := hb.resolve_left hpoint
    rw [if_neg hpoint, if_pos hletter] at h
    exact (readExponent_isScaled h).isDouble

theorem readAfterDigits_surplus {rest : Bytes} (hrest : StopsNumber rest) {positive : Bool}
    {n surplus : Nat} (hsurplus : surplus ≠ 0) {r : Bytes} {x : Number}
    (h : readAfterDigits positive n surplus rest = .ok (x, r)) : x.IsDouble := by
  unfold readAfterDigits at h
  split at h
  · exact absurd rfl (hrest _ rfl).2.1
  · exact absurd rfl (hrest _ rfl).2.2.1
  · exact absurd rfl (hrest _ rfl).2.2.2
  · rw [if_pos hsurplus] at h
    exact (finishDouble_isScaled h).isDouble

/-- What an integer of 64 bits is kept as; all other numerals are kept as doubles, or as integers
without a sign that are beyond those with one. -/
theorem readNumber_of_int?_eq_none {n : Numeral} (hn : n.int? = none) {rest r : Bytes}
    (hrest : Ends rest) {x : Number}
    (h : readNumber (!n.negative) (n.magnitude ++ rest) = .ok (x, r)) :
    x.IsDouble ∨ ∃ k, x = .unsigned k ∧ 0x8000000000000000 ≤ k := by
  rw [Numeral.magnitude, List.append_assoc, readNumber_whole n _ (n.tail_head hrest)] at h
  by_cases hwhole : n.IsWhole
  · rw [hwhole.tail, List.nil_append] at h
    by_cases hsurplus : (gather 0 n.whole.bytes).2 = 0
    · have hvalue : (gather 0 n.whole.bytes).1 = n.whole.value := gather_value hsurplus
      have hplain : ¬(n.fraction.isSome = true ∨ n.exponent.isSome = true) := by
        simp [hwhole.1, hwhole.2]
      rw [hsurplus, hvalue, readAfterDigits_integer hrest.stopsNumber] at h
      rw [Numeral.int?, if_neg hplain] at hn
      cases hneg : n.negative with
      | true =>
        have hbeyond : n.whole.value = 0 ∨ 0x8000000000000000 < n.whole.value := by
          refine Decidable.byContradiction fun hfits => ?_
          simp [hneg, hfits] at hn
        simp only [hneg, Bool.not_true, Bool.false_eq_true, if_false, if_pos hbeyond] at h
        cases h
        exact .inl trivial
      | false =>
        have hbeyond : ¬n.whole.value < 0x8000000000000000 := by
          intro hfits
          simp [hneg, hfits] at hn
        simp only [hneg, Bool.not_false, if_true] at h
        cases h
        exact .inr ⟨_, rfl, Nat.le_of_not_lt hbeyond⟩
    · exact .inl (readAfterDigits_surplus hrest.stopsNumber hsurplus h)
  · obtain ⟨b, t, htail, hb⟩ := Numeral.tail_of_not_isWhole hwhole
    rw [htail, List.cons_append] at h
    exact .inl (readAfterDigits_isDouble hb h)

theorem refuses_int64 {v : Tree} (hv : v.int? = none) : Refuses int64 v := by
  intro s hs rest hrest p h
  have hnumber : ∃ n, v = .number n := by
    obtain ⟨b, r, hb, hlead⟩ := hs.exists_lead rest
    obtain ⟨_, t, _, hstart, _⟩ := number_eq_ok h
    refine hlead.isNumber ?_
    rcases hstart with ⟨_, ht⟩ | ⟨_, rfl, d, r', ht, hd⟩
    · rw [hb] at ht
      exact .inl (List.cons.inj ht).1
    · rw [hb] at ht
      exact .inr ((List.cons.inj ht).1 ▸ hd)
  obtain ⟨n, rfl⟩ := hnumber
  cases hs with
  | @number w hw n =>
    obtain ⟨x, hread, hcheck⟩ := number_eq_ok_of_numeral n hw h
    rcases readNumber_of_int?_eq_none hv hrest hread with hdouble | ⟨k, rfl, hk⟩
    · cases x with
      | double => simp at hcheck
      | unsigned | negative => exact hdouble
    · simp [Nat.not_lt.2 hk] at hcheck

theorem decides_int64 : Decides int64 Tree.int? :=
  ⟨passesBlanks_int64, reads_int?, fun _ => refuses_int64⟩

theorem Tree.nullable?_of_ne_null {decode : Tree → Option α} {v : Tree} (hv : v ≠ .null) :
    v.nullable? decode = (decode v).map some := by
  cases v with
  | null => exact absurd rfl hv
  | boolean | number | text | list | object => rfl

theorem refuses_optional {item : Reader α} (hitem : PassesBlanks item) {v : Tree} (hv : v ≠ .null)
    (h : Refuses item v) : Refuses (optional item) v := by
  intro s hs rest hrest p hread
  rw [optional_of_ne_null hitem hv hs rest] at hread
  obtain ⟨q, hq, _⟩ := Result.map_eq_ok.1 hread
  exact h s hs rest hrest q hq

theorem passesBlanks_optional (item : Reader α) : PassesBlanks (optional item) := by
  intro s
  simp only [optional, skipSpace_idem]

theorem Decides.optional {item : Reader α} {decode : Tree → Option α} (h : Decides item decode) :
    Decides (optional item) (Tree.nullable? decode) where
  passesBlanks := passesBlanks_optional item
  reads _ _ hx := reads_nullable h.passesBlanks h.reads hx
  refuses v hv := by
    have hne : v ≠ .null := by
      rintro rfl
      simp [Tree.nullable?] at hv
    have hnone : decode v = none := by
      rw [Tree.nullable?_of_ne_null hne] at hv
      exact Option.map_eq_none_iff.1 hv
    exact refuses_optional h.passesBlanks hne (h.refuses v hnone)

section OptionalMember

variable {item : Reader α} {decode : Tree → Option α} (h : Decides item decode) (name : String)
  (set : σ → Option α → σ)
include h

theorem takesWhole_optionalMember (draft : σ) (v : Tree) :
    TakesWhole ((optionalMember name item set).read draft) v := by
  intro s hs rest hrest x r hread
  obtain ⟨⟨y, r'⟩, hy, heq⟩ := Result.map_eq_ok.1 hread
  obtain ⟨_, rfl⟩ := Prod.mk.inj heq
  exact h.optional.takesWhole v s hs rest hrest y r' hy

theorem refuses_optionalMember {v : Tree} (hv : v ≠ .null) (hnone : decode v = none) (draft : σ) :
    Refuses ((optionalMember name item set).read draft) v := by
  intro s hs rest hrest p hread
  obtain ⟨q, hq, _⟩ := Result.map_eq_ok.1 hread
  have hrefused : Refuses (optional item) v := refuses_optional h.passesBlanks hv (h.refuses v hnone)
  exact hrefused s hs rest hrest q hq

end OptionalMember

variable {members : List (Member σ)}

/-- A record knows the name and refuses the value that stands under it. -/
def Unfit (members : List (Member σ)) (p : String × Tree) : Prop :=
  ∃ m, members.find? (·.name == p.1) = some m ∧ ∀ draft, Refuses (m.read draft) p.2

section Step

variable {p : String × Tree} {s : Bytes} (h : Writes (.member p) s) {rest : Bytes} (hrest : Ends rest)
  {first : Bool} {s₀ : Bytes} (hs₀ : hasMember first s₀ = hasMember true (s ++ rest)) {b : UInt8}
  {fuel : Bytes} {seen : List String} {draft : σ} {x : σ × Bytes}
  (hfill : fill members (b :: fuel) first seen draft s₀ = .ok x)
include h hs₀ hfill

theorem fill_member_eq_ok : ∃ s' seen' draft' r, Writes (.value p.2) s' ∧
    Takes members seen draft p.1 (s' ++ rest) seen' draft' r ∧
    fill members fuel false seen' draft' r = .ok x := by
  obtain ⟨afterQuote, afterName, s', hmore, hname, hcolon, hvalue⟩ := h.member_steps rest hs₀
  rcases fill_eq_ok hfill with
    ⟨hend, _⟩ | ⟨s₁, name, s₂, s₃, seen', draft', r, hmore', hname', hcolon', htakes, hnext⟩
  · rw [hmore] at hend
    cases hend
  · rw [hmore] at hmore'
    cases hmore'
    rw [hname] at hname'
    cases hname'
    rw [hcolon] at hcolon'
    cases hcolon'
    exact ⟨s', seen', draft', r, hvalue, htakes, hnext⟩

include hrest

theorem not_unfit_of_fill : ¬Unfit members p := by
  rintro ⟨m, hfind, hrefuses⟩
  obtain ⟨s', _, draft', r, hvalue, htakes, _⟩ := fill_member_eq_ok h hs₀ hfill
  cases htakes with
  | unknown hnone =>
    rw [hfind] at hnone
    cases hnone
  | known hfind' _ hread =>
    rw [hfind] at hfind'
    cases hfind'
    exact hrefuses draft s' hvalue rest hrest (draft', r) hread

/-- If a record takes a member, it goes on where the member ends. -/
theorem exists_fill_after_member
    (hwhole : ∀ m ∈ members, ∀ draft v, TakesWhole (m.read draft) v) :
    ∃ seen' draft', fill members fuel false seen' draft' rest = .ok x := by
  obtain ⟨s', seen', draft', r, hvalue, htakes, hnext⟩ := fill_member_eq_ok h hs₀ hfill
  have hr : r = rest := by
    cases htakes with
    | unknown _ hread =>
      rw [ignored_writes hvalue hrest] at hread
      exact (congrArg Prod.snd (Except.ok.inj hread)).symm
    | known hfind _ hread =>
      have hmem := List.mem_of_find?_eq_some hfind
      exact hwhole _ hmem draft p.2 s' hvalue rest hrest draft' r hread
  rw [hr] at hnext
  exact ⟨seen', draft', hnext⟩

end Step

theorem not_unfit_of_fill_members
    (hwhole : ∀ m ∈ members, ∀ draft v, TakesWhole (m.read draft) v) {p : String × Tree}
    {ps : List (String × Tree)} {s w : Bytes} (h : Writes (.members p ps) s) (hw : Blank w)
    {rest : Bytes} {first : Bool} {s₀ : Bytes}
    (hs₀ : hasMember first s₀ = hasMember true (s ++ (w ++ 0x7d :: rest))) {fuel : Bytes}
    {seen : List String} {draft : σ} {x : σ × Bytes}
    (hfill : fill members fuel first seen draft s₀ = .ok x) : ∀ q ∈ p :: ps, ¬Unfit members q := by
  -- The fuel does not matter here: a record that runs out of it is not filled.
  induction ps generalizing p s s₀ seen fuel first draft with
  | nil =>
    cases h with
    | lastMember h =>
      cases fuel with
      | nil => simp [fill, faultAt] at hfill
      | cons b fuel =>
        have hrest := Ends.blank_append hw (ends_brace rest)
        simpa using not_unfit_of_fill h hrest hs₀ hfill
  | cons p' ps ih =>
    cases h with
    | @moreMembers _ _ _ s s' w' h hw' hs =>
      cases fuel with
      | nil => simp [fill, faultAt] at hfill
      | cons b fuel =>
        rw [List.append_assoc, List.append_assoc, List.cons_append] at hs₀
        have hrest := Ends.blank_append hw' (ends_comma (s' ++ (w ++ 0x7d :: rest)))
        have hfirst := not_unfit_of_fill h hrest hs₀ hfill
        obtain ⟨_, _, hnext⟩ := exists_fill_after_member h hrest hs₀ hfill hwhole
        obtain ⟨r, hr⟩ := hs.exists_quote_members (w ++ 0x7d :: rest)
        have hcomma := (hasMember_comma hw' hr).trans (hasMember_first hr).symm
        have hothers := ih hs hcomma hnext
        intro q hq
        rcases List.mem_cons.1 hq with rfl | hq
        · exact hfirst
        · exact hothers q hq

/-- No record takes an object with a member that it refuses, whatever else stands there. -/
theorem refuses_record (hwhole : ∀ m ∈ members, ∀ draft v, TakesWhole (m.read draft) v)
    {name : String} {draft : σ} {finish : σ → Except Cause α} {ps : List (String × Tree)}
    {q : String × Tree} (hq : q ∈ ps) (hunfit : Unfit members q) :
    Refuses (record name members draft finish) (.object ps) := by
  intro s hs rest _ x h
  cases hs with
  | emptyObject hw hw' => simp at hq
  | @object w w' p ps s hw hs hw' =>
    have hopen := skipSpace_bracketed hw (b := 0x7b) (by decide) s w' 0x7d rest
    obtain ⟨t, _, _, _, ⟨hlist, _⟩ | ⟨hobject, _, hfill⟩⟩ := record_eq_ok h
    · rw [hopen] at hlist
      cases hlist
    · rw [hopen] at hobject
      cases hobject
      exact not_unfit_of_fill_members hwhole hs hw' rfl hfill q hq hunfit

theorem document_ne_ok {item : Reader α} {v : Tree} (h : Refuses item v) {s w : Bytes}
    (hs : Writes (.value v) s) (hw : Blank w) (x : α) : document item (s ++ w) ≠ .ok x := by
  intro hdoc
  obtain ⟨r, hr, _⟩ := document_eq_ok hdoc
  exact h s hs w (ends_of_blank hw) (x, r) hr

end Json
end TenantGate
