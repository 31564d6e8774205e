import Mathlib.Data.List.Forall2
import Mathlib.Data.List.Nodup
import TenantGate.Proofs.FiniteDoubles
import TenantGate.Proofs.JsonForms
import TenantGate.Proofs.JsonRefusals
/-!
# Kinds of values

A reader of a type takes nothing but values of one kind, and with what it takes, a form of that
kind.  A value of another kind is refused, at any place in the document and whatever stands around
it, since the form of the document is the only one.
-/

namespace TenantGate
namespace Json

namespace Form

def IsTextOf : Form → String → Prop
  | .text s, t => Spells t.toList s
  | _, _ => False

def IsText (v : Form) : Prop := ∃ t, v.IsTextOf t

/-- A numeral of this integer of 64 bits with a sign. -/
def IsIntOf : Form → Int → Prop
  | .word s, i => ∃ n : Numeral, s = n.bytes ∧ n.int? = some i
  | _, _ => False

def IsInt (v : Form) : Prop := ∃ i, v.IsIntOf i

/-- A number that is read, and what is known of what is read. -/
def IsNumber (read : Number → Prop) : Form → Prop
  | .word s => ∃ (n : Numeral) (x : Number), s = n.bytes ∧ n.number? = some x ∧ read x
  | _ => False

def IsDouble : Form → Prop := IsNumber fun x => x.value.isFinite = true

def OrNull (kind : Form → Prop) (v : Form) : Prop := v = .word nullWord ∨ kind v

def IsNullOr {α : Type} (tells : Form → α → Prop) (v : Form) : Option α → Prop
  | none => v = .word nullWord
  | some x => tells v x

def IsList (kind : Form → Prop) : Form → Prop
  | .list vs => ∀ v ∈ vs, kind v
  | _ => False

def Named (name : String) (m : Bytes × Form) : Prop := Spells name.toList m.1

/-- What a record asks of one of its members. -/
structure Field where
  name : String
  kind : Form → Prop
  /-- Whether a list of the members has to go on at least to this one. -/
  required : Bool := true

def InOrder : List Field → List Form → Prop
  | [], vs => vs = []
  | k :: ks, [] => k.required = false ∧ InOrder ks []
  | k :: ks, v :: vs => k.kind v ∧ InOrder ks vs

/-- Members of which those that are known are of their kind and do not come twice. -/
structure HasFields (fields : List Field) (ms : List (Bytes × Form)) : Prop where
  kinds : ∀ k ∈ fields, ∀ m ∈ ms, Named k.name m → k.kind m.2
  once : ∀ k ∈ fields, ms.Pairwise fun p q => ¬(Named k.name p ∧ Named k.name q)

def IsRecord (fields : List Field) : Form → Prop
  | .object ms => HasFields fields ms
  | .list vs => InOrder fields vs
  | _ => False

end Form

/-- Whatever the reader takes has a form that tells what the reader gives. -/
def Yields {α : Type} (item : Reader α) (tells : Form → α → Prop) : Prop :=
  ∀ s x r, item s = .ok (x, r) → ∃ v s', s = s' ++ r ∧ Shows (.value v) s' ∧ tells v x

/-- Whatever the reader takes has a form of the kind. -/
def TakesOnly {α : Type} (item : Reader α) (kind : Form → Prop) : Prop :=
  Yields item fun v _ => kind v

variable {α σ : Type}

theorem Yields.imp {item : Reader α} {tells tells' : Form → α → Prop} (h : Yields item tells)
    (himp : ∀ v x, tells v x → tells' v x) : Yields item tells' := by
  intro s x r hread
  obtain ⟨v, s', hs, hv, htells⟩ := h s x r hread
  exact ⟨v, s', hs, hv, himp v x htells⟩

theorem Shows.blank_value {v : Form} {w s : Bytes} (h : Shows (.value v) s) (hw : Blank w) :
    Shows (.value v) (w ++ s) := by
  cases h with
  | blank hw' h =>
    rw [← List.append_assoc]
    exact .blank (fun b hb => (List.mem_append.1 hb).elim (hw b) (hw' b)) h

theorem takesOnly_ignored : TakesOnly ignored fun _ => True := by
  intro s x r h
  obtain ⟨t, ht, heq⟩ := Result.map_eq_ok.1 h
  obtain ⟨_, rfl⟩ := Prod.mk.inj heq
  obtain ⟨v, s', hs, hv⟩ := skipValue_eq_ok ht
  exact ⟨v, s', hs, hv, trivial⟩

theorem yields_text : Yields text Form.IsTextOf := by
  intro s t r h
  unfold text at h
  split at h
  · next rest hs =>
    obtain ⟨w, hw, rfl⟩ := skipSpace_eq_cons hs
    obtain ⟨s', rfl, hspells⟩ := readText_eq_ok h
    exact ⟨.text s', _, by simp, .blank hw (.text hspells.quoted), hspells⟩
  · exact absurd h (refuse_ne_ok _ _ _)

theorem takesOnly_text : TakesOnly text Form.IsText := yields_text.imp fun _ t h => ⟨t, h⟩

theorem yields_number (wanted : String) (check : Number → Except Cause α) :
    Yields (number wanted check) fun v y => v.IsNumber fun x => check x = .ok y := by
  intro s y r h
  obtain ⟨positive, t, x, hstart, hread, hcheck⟩ := number_eq_ok h
  obtain ⟨n, hn, rfl, hnumber⟩ := exists_numeral hread
  obtain ⟨w, hw, hs⟩ := exists_blank s
  refine ⟨.word n.bytes, w ++ n.bytes, ?_, .blank hw (.numeral n), n, x, rfl, hnumber, hcheck⟩
  rw [hs]
  rcases hstart with ⟨rfl, ht⟩ | ⟨rfl, ht, _⟩
  · simp [Numeral.bytes, hn, ht]
  · simp [Numeral.bytes, hn, ht]

theorem yields_int64 : Yields int64 Form.IsIntOf := by
  refine (yields_number _ _).imp fun v i hv => ?_
  cases v with
  | word s =>
    obtain ⟨n, x, rfl, hnumber, hcheck⟩ := hv
    refine ⟨n, rfl, ?_⟩
    have hwritten : Writes (.value (.number n)) ([] ++ n.bytes) := .number blank_nil n
    have hends : Ends [] := ends_of_blank blank_nil
    have hreads : Reads int64 (.number n) i := reads_number hnumber hcheck
    have hread := hreads _ hwritten [] hends
    cases hj : n.int? with
    | none =>
      have hrefused : Refuses int64 (.number n) := refuses_int64 hj
      exact absurd hread (hrefused _ hwritten [] hends _)
    | some j =>
      rw [reads_int64 hj _ hwritten [] hends] at hread
      obtain ⟨rfl, _⟩ := Prod.mk.inj (Except.ok.inj hread)
      rfl
  | text | list | object => exact hv

theorem takesOnly_int64 : TakesOnly int64 Form.IsInt := yields_int64.imp fun _ i h => ⟨i, h⟩

theorem isFinite_of_number? {n : Numeral} {x : Number} (h : n.number? = some x) :
    x.value.isFinite = true :=
  isFinite_readNumber (Numeral.readNumber_bytes h (ends_of_blank blank_nil))

theorem takesOnly_double : TakesOnly double Form.IsDouble := by
  refine (yields_number _ _).imp fun v _ hv => ?_
  cases v with
  | word s =>
    obtain ⟨n, x, rfl, hnumber, _⟩ := hv
    exact ⟨n, x, rfl, hnumber, isFinite_of_number? hnumber⟩
  | text | list | object => exact hv

theorem yields_optional {item : Reader α} {tells : Form → α → Prop} (h : Yields item tells) :
    Yields (optional item) (Form.IsNullOr tells) := by
  intro s x r hread
  unfold optional at hread
  split at hread
  · next t hs =>
    obtain ⟨w, hw, rfl⟩ := skipSpace_eq_cons hs
    obtain ⟨t', hword, heq⟩ := Result.map_eq_ok.1 hread
    obtain ⟨rfl, rfl⟩ := Prod.mk.inj heq
    rw [word_eq_ok hword]
    exact ⟨.word nullWord, w ++ nullWord, by simp [nullWord], .blank hw (.word (.inl rfl)), rfl⟩
  · obtain ⟨⟨y, t⟩, hitem, heq⟩ := Result.map_eq_ok.1 hread
    obtain ⟨rfl, rfl⟩ := Prod.mk.inj heq
    obtain ⟨w, hw, hs⟩ := exists_blank s
    obtain ⟨v, s', hs', hv, htells⟩ := h _ _ _ hitem
    exact ⟨v, w ++ s', by rw [hs, hs', List.append_assoc], hv.blank_value hw, htells⟩

theorem takesOnly_optional {item : Reader α} {kind : Form → Prop} (h : TakesOnly item kind) :
    TakesOnly (optional item) (Form.OrNull kind) := by
  refine (yields_optional h).imp fun v x hv => ?_
  cases x with
  | none => exact .inl hv
  | some => exact .inr hv

theorem hasElement_eq_false {first : Bool} {s r : Bytes} (h : hasElement first s = .ok (false, r)) :
    ∃ w rest, Blank w ∧ r = 0x5d :: rest ∧ s = w ++ r := by
  unfold hasElement at h
  split at h
  · simp [faultAt] at h
  · next rest hs =>
    obtain ⟨w, hw, rfl⟩ := skipSpace_eq_cons hs
    cases h
    exact ⟨w, rest, hw, rfl, rfl⟩
  · split at h
    · cases h
    · split at h
      · split at h <;> simp [faultAt, faultOn] at h
      · simp [faultOn] at h

theorem hasElement_eq_true {first : Bool} {s r : Bytes} (h : hasElement first s = .ok (true, r)) :
    ∃ l w, Leads first l ∧ Blank w ∧ s = l ++ (w ++ r) := by
  unfold hasElement at h
  split at h
  · simp [faultAt] at h
  · simp at h
  · next b rest _ hs =>
    obtain ⟨w, hw, rfl⟩ := skipSpace_eq_cons hs
    cases first with
    | true =>
      cases h
      exact ⟨[], w, leads_first, hw, rfl⟩
    | false =>
      rw [if_neg Bool.false_ne_true] at h
      split at h
      · next hb =>
        obtain ⟨w', hw', hrest⟩ := exists_blank rest
        split at h
        · simp [faultAt] at h
        · simp [faultOn] at h
        · cases h
          exact ⟨w ++ [0x2c], w', leads_comma hw, hw', by rw [← hrest]; simp [hb]⟩
      · simp [faultOn] at h

theorem elements_takesOnly {item : Reader α} {kind : Form → Prop} (h : TakesOnly item kind)
    {fuel s r : Bytes} {first : Bool} {xs : List α}
    (hread : elements item fuel first s = .ok (xs, r)) :
    ∃ vs s' rest, r = 0x5d :: rest ∧ s = s' ++ r ∧ Shows (.elements first vs) s' ∧
      (∀ v ∈ vs, kind v) ∧ vs.length = xs.length := by
  induction fuel generalizing first s xs with
  | nil => simp [elements, faultAt] at hread
  | cons b fuel ih =>
    obtain ⟨⟨more, s₁⟩, hmore, hread⟩ := Result.bind_eq_ok.1 hread
    cases more with
    | false =>
      obtain ⟨rfl, rfl⟩ := Prod.mk.inj (Result.pure_eq_ok.1 hread)
      obtain ⟨w, rest, hw, rfl, rfl⟩ := hasElement_eq_false hmore
      exact ⟨[], w, rest, rfl, rfl, .noElement hw, by simp, rfl⟩
    | true =>
      obtain ⟨⟨x, s₂⟩, hitem, hread⟩ := Result.bind_eq_ok.1 hread
      obtain ⟨⟨xs', r'⟩, hothers, hread⟩ := Result.bind_eq_ok.1 hread
      obtain ⟨rfl, rfl⟩ := Prod.mk.inj (Result.pure_eq_ok.1 hread)
      obtain ⟨l, w, hl, hw, rfl⟩ := hasElement_eq_true hmore
      obtain ⟨v, s', rfl, hv, hkind⟩ := h _ _ _ hitem
      obtain ⟨vs, s'', rest, rfl, rfl, hvs, hkinds, hlength⟩ := ih hothers
      exact ⟨v :: vs, _, rest, rfl, by simp, .element hl (hv.blank_value hw) hvs,
        List.forall_mem_cons.2 ⟨hkind, hkinds⟩, by simp [hlength]⟩

theorem bracketed_takesOnly {wanted : String} {body : Bytes → Reader α} {kind : Form → Prop}
    (h : ∀ whole s x r, body whole s = .ok (x, r) → ∃ vs s' rest, r = 0x5d :: rest ∧ s = s' ++ r ∧
      Shows (.elements true vs) s' ∧ kind (.list vs)) : TakesOnly (bracketed wanted body) kind := by
  intro s x r hread
  unfold bracketed at hread
  split at hread
  · next t hs =>
    obtain ⟨w, hw, rfl⟩ := skipSpace_eq_cons hs
    obtain ⟨⟨x', t'⟩, hbody, hread⟩ := Result.bind_eq_ok.1 hread
    obtain ⟨t'', hclose, hread⟩ := Result.bind_eq_ok.1 hread
    obtain ⟨rfl, rfl⟩ := Prod.mk.inj (Result.pure_eq_ok.1 hread)
    obtain ⟨vs, s', rest, rfl, rfl, hvs, hkind⟩ := h _ _ _ _ hbody
    obtain rfl : rest = t'' := Except.ok.inj ((closeList_close blank_nil rest).symm.trans hclose)
    exact ⟨.list vs, _, by simp, .blank hw (.list hvs), hkind⟩
  · exact absurd hread (refuse_ne_ok _ _ _)

theorem takesOnly_list {item : Reader α} {kind : Form → Prop} (h : TakesOnly item kind) :
    TakesOnly (list item) (Form.IsList kind) := by
  refine bracketed_takesOnly fun whole s xs r hread => ?_
  obtain ⟨vs, s', rest, hr, hs, hvs, hkinds, _⟩ := elements_takesOnly h hread
  exact ⟨vs, s', rest, hr, hs, hvs, hkinds⟩

theorem closeList_eq_ok {s r : Bytes} (h : closeList s = .ok r) :
    ∃ w, Blank w ∧ s = w ++ 0x5d :: r := by
  unfold closeList at h
  split at h
  · simp [faultAt] at h
  · next hs =>
    cases h
    exact skipSpace_eq_cons hs
  · split at h <;> simp [faultOn] at h
  · simp [faultOn] at h

/-- A member of a record takes what is asked of it. -/
structure Member.Is (m : Member σ) (k : Form.Field) : Prop where
  name : m.name = k.name
  takes : ∀ draft, TakesOnly (m.read draft) k.kind
  absent : k.required = true → ∀ draft, m.absent draft = none

theorem Member.is_optional {item : Reader α} {kind : Form → Prop} (h : TakesOnly item kind)
    (name : String) (set : σ → Option α → σ) :
    (optionalMember name item set).Is { name := name, kind := Form.OrNull kind } where
  name := rfl
  takes draft s x r hread := by
    obtain ⟨⟨y, t⟩, hy, heq⟩ := Result.map_eq_ok.1 hread
    obtain ⟨_, rfl⟩ := Prod.mk.inj heq
    exact takesOnly_optional h s y t hy
  absent _ _ := rfl

section Records

variable {members : List (Member σ)} {fields : List Form.Field}
  (h : List.Forall₂ Member.Is members fields)
include h

theorem exists_field {m : Member σ} (hm : m ∈ members) : ∃ k ∈ fields, m.Is k := by
  induction h with
  | nil => cases hm
  | cons hfirst _ ih =>
    rcases List.mem_cons.1 hm with rfl | hm
    · exact ⟨_, List.mem_cons_self, hfirst⟩
    · obtain ⟨k, hk, his⟩ := ih hm
      exact ⟨k, List.mem_cons_of_mem _ hk, his⟩

theorem map_name : members.map (·.name) = fields.map (·.name) := by
  induction h with
  | nil => rfl
  | cons hfirst _ ih => rw [List.map_cons, List.map_cons, hfirst.name, ih]

theorem fillInOrder_takesOnly {wanted : String} {read : Nat} {draft d : σ} {s r rest : Bytes}
    (hread : fillInOrder wanted read members draft s = .ok (d, r))
    (hclose : closeList r = .ok rest) :
    ∃ vs s', s = s' ++ 0x5d :: rest ∧ Shows (.elements (read == 0) vs) s' ∧
      Form.InOrder fields vs := by
  induction h generalizing read draft s with
  | nil =>
    cases hread
    obtain ⟨w, hw, rfl⟩ := closeList_eq_ok hclose
    exact ⟨[], w, rfl, .noElement hw, rfl⟩
  | @cons m k ms ks hm _ ih =>
    simp only [fillInOrder] at hread
    obtain ⟨⟨more, s₁⟩, hmore, hchoice⟩ := Result.bind_eq_ok.1 hread
    cases more with
    | false =>
      obtain ⟨w, t, hw, rfl, rfl⟩ := hasElement_eq_false hmore
      rw [if_neg Bool.false_ne_true] at hchoice
      split at hchoice
      · next d' habsent =>
        obtain ⟨vs, s', hs', hvs, horder⟩ := ih hchoice
        -- The list has ended here, and so it has no more elements for the members that follow.
        obtain ⟨rfl, rfl⟩ := (Shows.noElement blank_nil).alone vs s' t rest hvs hs'
        refine ⟨[], w, rfl, .noElement hw, ?_, horder⟩
        cases hrequired : k.required with
        | false => rfl
        | true => simp [hm.absent hrequired] at habsent
      · exact absurd hchoice (faultAfterList_ne_ok _ _ _)
    | true =>
      obtain ⟨⟨d₁, s₂⟩, hitem, hnext⟩ := Result.bind_eq_ok.1 hchoice
      obtain ⟨l, w, hl, hw, rfl⟩ := hasElement_eq_true hmore
      obtain ⟨v, s', rfl, hv, hkind⟩ := hm.takes draft _ _ _ hitem
      obtain ⟨vs, s'', rfl, hvs, horder⟩ := ih hnext
      exact ⟨v :: vs, _, by simp, .element hl (hv.blank_value hw) hvs, hkind, horder⟩

omit h in
theorem Spells.text_inj {t t' : String} {s : Bytes} (h : Spells t.toList s)
    (h' : Spells t'.toList s) : t = t' := by
  have hread := readText_spells h []
  rw [readText_spells h' []] at hread
  exact (congrArg Prod.fst (Except.ok.inj hread)).symm

theorem takes_member (hnames : (fields.map (·.name)).Nodup) {seen seen' : List String}
    {draft draft' : σ} {name : String} {n s r : Bytes} (hn : Spells name.toList n)
    (htakes : Takes members seen draft name s seen' draft' r) :
    ∃ v s', s = s' ++ r ∧ Shows (.value v) s' ∧ seen ⊆ seen' ∧
      ∀ k ∈ fields, Form.Named k.name (n, v) → k.kind v ∧ k.name ∉ seen ∧ k.name ∈ seen' := by
  cases htakes with
  | unknown hfind hread =>
    obtain ⟨v, s', hs, hv, _⟩ := takesOnly_ignored _ _ _ hread
    refine ⟨v, s', hs, hv, List.Subset.refl _, fun k hk hnamed => ?_⟩
    have hknown : name ∈ members.map (·.name) := by
      rw [map_name h, hn.text_inj hnamed]
      exact List.mem_map_of_mem hk
    obtain ⟨m, hm, hname⟩ := List.mem_map.1 hknown
    exact absurd (by simpa using hname) (List.find?_eq_none.1 hfind m hm)
  | @known m _ _ hfind hnew hread =>
    obtain ⟨k, hk, his⟩ := exists_field h (List.mem_of_find?_eq_some hfind)
    have hname : m.name = name := by simpa using List.find?_some hfind
    obtain ⟨v, s', hs, hv, hkind⟩ := his.takes draft _ _ _ hread
    refine ⟨v, s', hs, hv, List.subset_cons_self _ _, fun k' hk' hnamed => ?_⟩
    have hname' : k'.name = name := hnamed.text_inj hn
    obtain rfl : k = k' := List.inj_on_of_nodup_map hnames hk hk'
      (his.name.symm.trans (hname.trans hname'.symm))
    rw [hname']
    exact ⟨hkind, hnew, List.mem_cons_self⟩

theorem fill_takesOnly (hnames : (fields.map (·.name)).Nodup) {fuel s r : Bytes} {first : Bool}
    {seen : List String} {draft d : σ}
    (hread : fill members fuel first seen draft s = .ok (d, r)) :
    ∃ ms s' rest, r = 0x7d :: rest ∧ s = s' ++ r ∧ Shows (.members first ms) s' ∧
      Form.HasFields fields ms ∧
      ∀ k ∈ fields, k.name ∈ seen → ∀ m ∈ ms, ¬Form.Named k.name m := by
  induction fuel generalizing first seen draft s with
  | nil => simp [fill, faultAt] at hread
  | cons b fuel ih =>
    rcases fill_eq_ok hread with
      ⟨hmore, rfl⟩ | ⟨s₁, name, s₂, s₃, seen', draft', t, hmore, hname, hcolon, htakes, hnext⟩
    · obtain ⟨w, rest, hw, rfl, rfl⟩ := hasMember_eq_false hmore
      exact ⟨[], w, rest, rfl, rfl, .noMember hw, ⟨by simp, by simp⟩, by simp⟩
    · obtain ⟨l, w, hl, hw, rfl⟩ := hasMember_eq_true hmore
      obtain ⟨n, rfl, hn⟩ := readText_eq_ok hname
      obtain ⟨w', hw', rfl⟩ := colon_eq_ok hcolon
      obtain ⟨v, s', rfl, hv, hseen, hfields⟩ := takes_member h hnames hn htakes
      obtain ⟨ms, s'', rest, rfl, rfl, hms, hothers, hnew⟩ := ih hnext
      refine ⟨(n, v) :: ms, _, rest, rfl, by simp, .member hl hw hn.quoted hw' hv hms, ⟨?_, ?_⟩, ?_⟩
      · exact fun k hk => List.forall_mem_cons.2 ⟨fun hnamed => (hfields k hk hnamed).1,
          hothers.kinds k hk⟩
      · refine fun k hk => List.pairwise_cons.2 ⟨fun m hm => ?_, hothers.once k hk⟩
        rintro ⟨hnamed, hnamed'⟩
        exact hnew k hk (hfields k hk hnamed).2.2 m hm hnamed'
      · intro k hk hmem
        exact List.forall_mem_cons.2 ⟨fun hnamed => (hfields k hk hnamed).2.1 hmem,
          hnew k hk (hseen hmem)⟩

/-- A record takes an object or a list of its members, and each of them is of its kind. -/
theorem takesOnly_record (hnames : (fields.map (·.name)).Nodup) (name : String) (draft : σ)
    (finish : σ → Except Cause α) :
    TakesOnly (record name members draft finish) (Form.IsRecord fields) := by
  intro s x r hread
  obtain ⟨t, d, t', _, ⟨hs, hclose, wanted, hfill⟩ | ⟨hs, hclose, hfill⟩⟩ := record_eq_ok hread
  · obtain ⟨w, hw, rfl⟩ := skipSpace_eq_cons hs
    obtain ⟨vs, s', rfl, hvs, horder⟩ := fillInOrder_takesOnly h hfill hclose
    exact ⟨.list vs, _, by simp, .blank hw (.list hvs), horder⟩
  · obtain ⟨w, hw, rfl⟩ := skipSpace_eq_cons hs
    obtain ⟨ms, s', rest, rfl, rfl, hms, hfields, _⟩ := fill_takesOnly h hnames hfill
    obtain rfl : rest = r := Except.ok.inj ((closeObject_brace rest).symm.trans hclose)
    exact ⟨.object ms, _, by simp, .blank hw (.object hms), hfields⟩

end Records

theorem exists_shown {item : Reader α} {kind : Form → Prop} (h : TakesOnly item kind) {doc : Bytes}
    {x : α} (hdoc : document item doc = .ok x) : ∃ v, Shown doc v ∧ kind v := by
  obtain ⟨r, hitem, hr⟩ := document_eq_ok hdoc
  obtain ⟨v, s', rfl, hv, hkind⟩ := h _ _ _ hitem
  exact ⟨v, ⟨s', r, rfl, hv, blank_of_skipSpace hr⟩, hkind⟩

end Json
end TenantGate
