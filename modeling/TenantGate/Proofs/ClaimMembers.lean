import TenantGate.Proofs.JsonContents
import TenantGate.Proofs.TokenDocuments
/-!
# What claims are read from

Claims are read from an object only.  A list of them would have to be as long as the list of the
registered claims, which is longer.  The times and the subject are what the members of the object
say.
-/

namespace TenantGate
namespace Claims

open Json

def fields : List Form.Field := [
  { name := "sub", kind := Form.OrNull Form.IsText },
  { name := "exp", kind := Form.OrNull Form.IsInt },
  { name := "nbf", kind := Form.OrNull Form.IsInt },
  { name := "iat", kind := Form.OrNull Form.IsInt }]

theorem members_are_fields : List.Forall₂ Member.Is members fields :=
  .cons (Member.is_optional takesOnly_text _ _) <|
  .cons (Member.is_optional takesOnly_int64 _ _) <|
  .cons (Member.is_optional takesOnly_int64 _ _) <|
  .cons (Member.is_optional takesOnly_int64 _ _) .nil

theorem registered_covers {item : Reader α} (hitem : PassesBlanks item)
    (h : ∀ s y r, item s = .ok (y, r) → ∃ x, Value.read nesting s = .ok (x, r)) (name : String)
    (set : Claims → Option α → Claims) (name' : String) (absent : Option Unit) :
    (registeredMember name' absent).Covers (optionalMember name item set) := by
  intro draft _ s d r hread
  obtain ⟨⟨y, r'⟩, hy, heq⟩ := Result.map_eq_ok.1 hread
  obtain ⟨_, rfl⟩ := Prod.mk.inj heq
  obtain ⟨x, hx⟩ := Value.exists_read_of_optional hitem h hy
  exact ⟨(), by simp only [registeredMember, attempt, hx, stop]⟩

theorem registered_cover_members :
    List.Forall₂ (fun m k => Member.Covers k m) members (registered.take 4) := by
  have subject := registered_covers passesBlanks_text fun _ _ _ h => ⟨_, Value.read_of_text h _⟩
  have time := registered_covers passesBlanks_int64 fun _ _ _ h => Value.exists_read_of_number h _
  exact .cons (subject _ _ _ _) (.cons (time _ _ _ _) (.cons (time _ _ _ _)
    (.cons (time _ _ _ _) .nil)))

theorem document_eq_ok_of_ofDocument {doc : Bytes} {c : Claims} (h : ofDocument doc = .ok c) :
    document read doc = .ok c ∧ document readRegistered doc = .ok () := by
  obtain ⟨claims, hread, h⟩ := Result.bind_eq_ok.1 h
  obtain ⟨_, hregistered, h⟩ := Result.bind_eq_ok.1 h
  obtain rfl := Result.pure_eq_ok.1 h
  exact ⟨hread, hregistered⟩

theorem exists_object {doc : Bytes} {c : Claims} (h : ofDocument doc = .ok c) :
    ∃ ms, Shown doc (.object ms) := by
  obtain ⟨hread, hregistered⟩ := document_eq_ok_of_ofDocument h
  have hrecord := takesOnly_record members_are_fields (by decide) "struct Claims" {} .ok
  obtain ⟨v, hv, hkind⟩ := exists_shown hrecord hread
  cases v with
  | object ms => exact ⟨ms, hv⟩
  | word | text => exact absurd hkind id
  | list vs =>
    obtain ⟨u, hu⟩ := hv.skipSpace_list
    obtain ⟨r, hitem, _⟩ := document_eq_ok hread
    obtain ⟨r', hitem', _⟩ := document_eq_ok hregistered
    obtain ⟨t, d, t₁, _, ⟨hs, hclose, wanted, hfill⟩ | ⟨hs, _⟩⟩ := record_eq_ok hitem
    · obtain ⟨t', d', t₂, _, ⟨hs', _, wanted', hfill'⟩ | ⟨hs', _⟩⟩ := record_eq_ok hitem'
      · rw [hs] at hs'
        cases hs'
        have habsent : ∀ m ∈ members, ∀ d, m.absent d = none := by
          simp [members, optionalMember]
        exact absurd hfill' (fillInOrder_ne_ok registered_cover_members habsent
          (k := registeredMember "aud" none) (fun _ => rfl) hfill hclose _)
      · rw [hu] at hs'
        cases hs'
    · rw [hu] at hs
      cases hs

theorem forall_mem_members {P : Member Claims → Prop}
    (sub : P (optionalMember "sub" text fun c x => { c with subject := x }))
    (exp : P (optionalMember "exp" int64 fun c x => { c with expires := x }))
    (nbf : P (optionalMember "nbf" int64 fun c x => { c with notBefore := x }))
    (iat : P (optionalMember "iat" int64 fun c x => { c with issuedAt := x })) :
    ∀ m ∈ members, P m := by
  simp only [members, List.forall_mem_cons]
  exact ⟨sub, exp, nbf, iat, List.forall_mem_nil _⟩

theorem sets_subject : Sets members "sub" subject (Form.IsNullOr Form.IsTextOf) where
  known := by decide
  reads := forall_mem_members
    (.inl ⟨rfl, optionalMember_sets yields_text fun _ _ => rfl⟩)
    (.inr ⟨by decide, optionalMember_keeps yields_int64 fun _ _ => rfl⟩)
    (.inr ⟨by decide, optionalMember_keeps yields_int64 fun _ _ => rfl⟩)
    (.inr ⟨by decide, optionalMember_keeps yields_int64 fun _ _ => rfl⟩)

theorem sets_expires : Sets members "exp" expires (Form.IsNullOr Form.IsIntOf) where
  known := by decide
  reads := forall_mem_members
    (.inr ⟨by decide, optionalMember_keeps yields_text fun _ _ => rfl⟩)
    (.inl ⟨rfl, optionalMember_sets yields_int64 fun _ _ => rfl⟩)
    (.inr ⟨by decide, optionalMember_keeps yields_int64 fun _ _ => rfl⟩)
    (.inr ⟨by decide, optionalMember_keeps yields_int64 fun _ _ => rfl⟩)

theorem sets_notBefore : Sets members "nbf" notBefore (Form.IsNullOr Form.IsIntOf) where
  known := by decide
  reads := forall_mem_members
    (.inr ⟨by decide, optionalMember_keeps yields_text fun _ _ => rfl⟩)
    (.inr ⟨by decide, optionalMember_keeps yields_int64 fun _ _ => rfl⟩)
    (.inl ⟨rfl, optionalMember_sets yields_int64 fun _ _ => rfl⟩)
    (.inr ⟨by decide, optionalMember_keeps yields_int64 fun _ _ => rfl⟩)

theorem sets_issuedAt : Sets members "iat" issuedAt (Form.IsNullOr Form.IsIntOf) where
  known := by decide
  reads := forall_mem_members
    (.inr ⟨by decide, optionalMember_keeps yields_text fun _ _ => rfl⟩)
    (.inr ⟨by decide, optionalMember_keeps yields_int64 fun _ _ => rfl⟩)
    (.inr ⟨by decide, optionalMember_keeps yields_int64 fun _ _ => rfl⟩)
    (.inl ⟨rfl, optionalMember_sets yields_int64 fun _ _ => rfl⟩)

/-- The claims allow a use now: a token may be used from its first second on, but not in its last. -/
def Current (c : Claims) (now : Int) : Prop :=
  (∀ e, c.expires = some e → now < e) ∧ (∀ n, c.notBefore = some n → n ≤ now) ∧
    ∀ i, c.issuedAt = some i → i ≤ now

/-- A time that is given, and not as null, is an integer of 64 bits for which the condition holds. -/
def Timed (ms : List (Bytes × Form)) (name : String) (holds : Int → Prop) : Prop :=
  ∀ m ∈ ms, Form.Named name m → m.2 ≠ .word nullWord → ∃ t, m.2.IsIntOf t ∧ holds t

/-- The members of a payload name a subject and allow a use now. -/
structure Allows (ms : List (Bytes × Form)) (now : Int) (subject : String) : Prop where
  given : ∃ m ∈ ms, Form.Named "sub" m
  subject : ∀ m ∈ ms, Form.Named "sub" m → m.2.IsTextOf subject
  expires : Timed ms "exp" fun t => now < t
  notBefore : Timed ms "nbf" fun t => t ≤ now
  issuedAt : Timed ms "iat" fun t => t ≤ now

theorem timed_of_tells {ms : List (Bytes × Form)} {name : String} {x : Option Int}
    {holds : Int → Prop} (h : Form.Tells ms name (Form.IsNullOr Form.IsIntOf) none x)
    (hx : ∀ t, x = some t → holds t) : Timed ms name holds := by
  intro m hm hnamed hne
  have htold := h.told m hm hnamed
  cases x with
  | none => exact absurd htold hne
  | some t => exact ⟨t, htold, hx t rfl⟩

/-- Claims that allow a use now were read from members that do. -/
theorem allows_of_ofDocument {doc : Bytes} {c : Claims} (h : ofDocument doc = .ok c)
    {ms : List (Bytes × Form)} (hms : Shown doc (.object ms)) {now : Int} (hnow : c.Current now)
    {subject : String} (hsubject : c.subject = some subject) : Allows ms now subject := by
  obtain ⟨hread, _⟩ := document_eq_ok_of_ofDocument h
  have hsub := tells_of_document sets_subject hread hms
  rw [hsubject] at hsub
  exact {
    given := hsub.kept.resolve_left (by simp)
    subject := hsub.told
    expires := timed_of_tells (tells_of_document sets_expires hread hms) hnow.1
    notBefore := timed_of_tells (tells_of_document sets_notBefore hread hms) hnow.2.1
    issuedAt := timed_of_tells (tells_of_document sets_issuedAt hread hms) hnow.2.2 }

end Claims
end TenantGate
