import TenantGate.Proofs.JsonReading
/-!
# Records in documents

An object is read into a record, member by member, if no name that the record knows comes twice;
members that it does not know are passed over.
-/

namespace TenantGate
namespace Json

variable {α σ : Type}

/-- However a document writes the tree, the reader takes it for `x`. -/
def Reads (item : Reader α) (v : Tree) (x : α) : Prop :=
  ∀ s, Writes (.value v) s → ∀ rest, Ends rest → item (s ++ rest) = .ok (x, rest)

theorem reads_text (t : String) : Reads text (.text t) t :=
  fun _ h rest _ => text_writes h rest

theorem reads_int64 {n : Numeral} {i : Int} (hi : n.int? = some i) : Reads int64 (.number n) i :=
  fun _ h _ hrest => int64_writes hi h hrest

theorem reads_optional_null (item : Reader α) : Reads (optional item) .null none :=
  fun _ h rest _ => optional_null item h rest

theorem reads_optional {item : Reader α} (hitem : PassesBlanks item) {v : Tree} (hv : v ≠ .null)
    {x : α} (h : Reads item v x) : Reads (optional item) v (some x) := by
  intro s hs rest hrest
  rw [optional_of_ne_null hitem hv hs rest, h s hs rest hrest]
  rfl

theorem hasMember_end {w : Bytes} (hw : Blank w) (first : Bool) (rest : Bytes) :
    hasMember first (w ++ 0x7d :: rest) = .ok (false, 0x7d :: rest) := by
  simp only [hasMember, skipSpace_close hw (b := 0x7d) (by decide)]

theorem hasMember_first {s r : Bytes} (h : skipSpace s = 0x22 :: r) :
    hasMember true s = .ok (true, r) := by
  simp [hasMember, h]

theorem hasMember_comma {w s r : Bytes} (hw : Blank w) (h : skipSpace s = 0x22 :: r) :
    hasMember false (w ++ 0x2c :: s) = .ok (true, r) := by
  simp [hasMember, skipSpace_close hw (b := 0x2c) (by decide), h]

theorem colon_close {w : Bytes} (hw : Blank w) (rest : Bytes) :
    colon (w ++ 0x3a :: rest) = .ok rest := by
  simp only [colon, skipSpace_close hw (b := 0x3a) (by decide)]

theorem closeObject_close {w : Bytes} (hw : Blank w) (rest : Bytes) :
    closeObject (w ++ 0x7d :: rest) = .ok rest := by
  simp only [closeObject, skipSpace_close hw (b := 0x7d) (by decide)]

theorem closeObject_brace (rest : Bytes) : closeObject (0x7d :: rest) = .ok rest :=
  closeObject_close blank_nil rest

/-- No two members have the name. -/
def Once {β : Type} (ps : List (String × β)) (name : String) : Prop := (ps.map (·.1)).count name ≤ 1

section Once

variable {β : Type} {p : String × β} {ps : List (String × β)} {name : String}

instance : Decidable (Once ps name) := inferInstanceAs (Decidable ((ps.map (·.1)).count name ≤ 1))

theorem once_of_nodup (h : (ps.map (·.1)).Nodup) (name : String) : Once ps name :=
  List.nodup_iff_count.1 h name

theorem Once.tail (h : Once (p :: ps) name) : Once ps name := by
  unfold Once at h ⊢
  rw [List.map_cons, List.count_cons] at h
  omega

theorem Once.notMem_tail (h : Once (p :: ps) p.1) : p.1 ∉ ps.map (·.1) := by
  unfold Once at h
  rw [List.map_cons, List.count_cons_self] at h
  exact List.count_eq_zero.1 (by omega)

end Once

/-- A record knows the names of its members. -/
def Knows (members : List (Member σ)) (name : String) : Prop := name ∈ members.map (·.name)

theorem knows_of_find? {members : List (Member σ)} {name : String} {m : Member σ}
    (h : members.find? (·.name == name) = some m) : Knows members name :=
  List.mem_map.2 ⟨m, List.mem_of_find?_eq_some h, by simpa using List.find?_some h⟩

theorem find?_eq_none {members : List (Member σ)} {name : String} (h : ¬Knows members name) :
    members.find? (·.name == name) = none :=
  List.find?_eq_none.2 fun m hm heq => h (List.mem_map.2 ⟨m, hm, beq_iff_eq.1 heq⟩)

/-- What a record makes of a member: nothing if it does not know the name. -/
def Fits (members : List (Member σ)) (effect : String × Tree → σ → σ) (p : String × Tree) : Prop :=
  match members.find? (·.name == p.1) with
  | none => ∀ draft, effect p draft = draft
  | some m => ∀ draft, Reads (m.read draft) p.2 (effect p draft)

variable {members : List (Member σ)} {effect : String × Tree → σ → σ}

theorem Writes.member_steps {p : String × Tree} {s : Bytes} (h : Writes (.member p) s) (rest : Bytes)
    {first : Bool} {s₀ : Bytes} (hs₀ : hasMember first s₀ = hasMember true (s ++ rest)) :
    ∃ afterQuote afterName s', hasMember first s₀ = .ok (true, afterQuote) ∧
      readText afterQuote = .ok (p.1, afterName) ∧ colon afterName = .ok (s' ++ rest) ∧
      Writes (.value p.2) s' := by
  cases h with
  | @pair w w' name v n s hw hn hw' h =>
    have hquote : skipSpace (w ++ 0x22 :: (n ++ 0x22 :: (w' ++ 0x3a :: s)) ++ rest)
        = 0x22 :: (n ++ 0x22 :: (w' ++ 0x3a :: (s ++ rest))) := by
      simpa using skipSpace_lead hw (b := 0x22) (by decide) (n ++ 0x22 :: (w' ++ 0x3a :: (s ++ rest)))
    exact ⟨_, _, s, hs₀.trans (hasMember_first hquote), readText_spells hn _, colon_close hw' _, h⟩

theorem fill_member {p : String × Tree} (hfits : Fits members effect p) {s : Bytes}
    (h : Writes (.member p) s) {rest : Bytes} (hrest : Ends rest) {first : Bool} {s₀ : Bytes}
    (hs₀ : hasMember first s₀ = hasMember true (s ++ rest)) {seen : List String}
    (hseen : Knows members p.1 → p.1 ∉ seen) (b : UInt8) (fuel : Bytes) (draft : σ) :
    ∃ seen', (∀ name ∈ seen', (name = p.1 ∧ Knows members name) ∨ name ∈ seen) ∧
      fill members (b :: fuel) first seen draft s₀
        = fill members fuel false seen' (effect p draft) rest := by
  obtain ⟨_, _, s', hmore, hname, hcolon, hvalue⟩ := h.member_steps rest hs₀
  unfold Fits at hfits
  cases hfind : members.find? (·.name == p.1) with
  | none =>
    rw [hfind] at hfits
    refine ⟨seen, fun _ h => .inr h, ?_⟩
    simp only [fill, hmore, bind, Except.bind, if_true, hname, hfind, hcolon,
      ignored_writes hvalue hrest, hfits draft]
  | some m =>
    rw [hfind] at hfits
    have hknown := knows_of_find? hfind
    refine ⟨p.1 :: seen, fun name h => (List.mem_cons.1 h).imp_left ?_, ?_⟩
    · rintro rfl
      exact ⟨rfl, hknown⟩
    · simp only [fill, hmore, bind, Except.bind, if_true, hname, hfind, if_neg (hseen hknown), hcolon,
        hfits draft s' hvalue rest hrest]

theorem fill_end {w : Bytes} (hw : Blank w) (rest : Bytes) (b : UInt8) (fuel : Bytes) (first : Bool)
    (seen : List String) (draft : σ) :
    fill members (b :: fuel) first seen draft (w ++ 0x7d :: rest) = .ok (draft, 0x7d :: rest) := by
  simp [fill, hasMember_end hw, bind, Except.bind, pure, Except.pure]

/-- All members are read in the order in which they are written, if no known name comes twice. -/
theorem fill_members {p : String × Tree} {ps : List (String × Tree)} {s w : Bytes}
    (h : Writes (.members p ps) s) (hw : Blank w) (hfits : ∀ q ∈ p :: ps, Fits members effect q)
    (hnames : ∀ name, Knows members name → Once (p :: ps) name) {seen : List String}
    (hseen : ∀ q ∈ p :: ps, Knows members q.1 → q.1 ∉ seen) {fuel : Bytes}
    (hfuel : ps.length + 1 < fuel.length) (rest : Bytes) {first : Bool} {s₀ : Bytes}
    (hs₀ : hasMember first s₀ = hasMember true (s ++ (w ++ 0x7d :: rest))) (draft : σ) :
    fill members fuel first seen draft s₀
      = .ok ((p :: ps).foldl (fun d q => effect q d) draft, 0x7d :: rest) := by
  induction ps generalizing p s s₀ seen fuel first draft with
  | nil =>
    cases h with
    | lastMember h =>
      match fuel, hfuel with
      | a :: b :: fuel, _ =>
        obtain ⟨_, _, hstep⟩ := fill_member (hfits p List.mem_cons_self) h
          (Ends.blank_append hw (ends_brace rest)) hs₀ (hseen p List.mem_cons_self) a (b :: fuel) draft
        rw [hstep, fill_end hw]
        rfl
  | cons q qs ih =>
    cases h with
    | @moreMembers _ _ _ s s' w' h hw' hs =>
      match fuel, hfuel with
      | a :: fuel, hfuel =>
        rw [List.append_assoc, List.append_assoc, List.cons_append] at hs₀
        obtain ⟨seen', hseen', hstep⟩ := fill_member (hfits p List.mem_cons_self) h
          (Ends.blank_append hw' (ends_comma _)) hs₀ (hseen p List.mem_cons_self) a fuel draft
        obtain ⟨r, hr⟩ := hs.exists_quote_members (w ++ 0x7d :: rest)
        have hnext := (hasMember_comma hw' hr).trans (hasMember_first hr).symm
        rw [hstep]
        refine ih hs (fun q hq => hfits q (List.mem_cons_of_mem p hq))
          (fun name hname => (hnames name hname).tail) ?_ ?_ hnext (effect p draft)
        · intro x hx hknown hmem
          rcases hseen' _ hmem with ⟨heq, _⟩ | hmem
          · exact (hnames p.1 (heq ▸ hknown)).notMem_tail (List.mem_map.2 ⟨x, hx, heq⟩)
          · exact hseen x (List.mem_cons_of_mem p hx) hknown hmem
        · simpa using hfuel

theorem faultAfterName_ne_ok (cause : Cause) (s : Bytes) (p : α × Bytes) :
    faultAfterName cause s ≠ .ok p := by
  unfold faultAfterName
  split <;> simp [faultAt]

theorem faultAfterList_ne_ok (cause : Cause) (s : Bytes) (x : α) : faultAfterList cause s ≠ .ok x := by
  unfold faultAfterList
  split <;> simp [faultAt]

/-- What a record makes of the value under a name: the names that it has seen then, what it holds
and what is left of the document. -/
inductive Takes (members : List (Member σ)) (seen : List String) (draft : σ) (name : String)
    (s : Bytes) : List String → σ → Bytes → Prop
  | unknown {r : Bytes} (hfind : members.find? (·.name == name) = none)
      (hread : ignored s = .ok ((), r)) : Takes members seen draft name s seen draft r
  | known {m : Member σ} {draft' : σ} {r : Bytes} (hfind : members.find? (·.name == name) = some m)
      (hnew : name ∉ seen) (hread : m.read draft s = .ok (draft', r)) :
      Takes members seen draft name s (name :: seen) draft' r

/-- A record that is filled ends where it stands, or goes on after a member that it takes. -/
theorem fill_eq_ok {b : UInt8} {fuel : Bytes} {first : Bool} {seen : List String} {draft : σ}
    {s : Bytes} {x : σ × Bytes} (h : fill members (b :: fuel) first seen draft s = .ok x) :
    (hasMember first s = .ok (false, x.2) ∧ draft = x.1) ∨
      ∃ s₁ name s₂ s₃ seen' draft' r, hasMember first s = .ok (true, s₁) ∧
        readText s₁ = .ok (name, s₂) ∧ colon s₂ = .ok s₃ ∧
        Takes members seen draft name s₃ seen' draft' r ∧
        fill members fuel false seen' draft' r = .ok x := by
  simp only [fill] at h
  obtain ⟨⟨more, s₁⟩, hmore, h⟩ := Result.bind_eq_ok.1 h
  cases more with
  | false =>
    cases h
    exact .inl ⟨hmore, rfl⟩
  | true =>
    obtain ⟨⟨name, s₂⟩, hname, h⟩ := Result.bind_eq_ok.1 h
    right
    split at h
    · next hfind =>
      obtain ⟨s₃, hcolon, h⟩ := Result.bind_eq_ok.1 h
      obtain ⟨⟨_, r⟩, hread, h⟩ := Result.bind_eq_ok.1 h
      exact ⟨s₁, name, s₂, s₃, seen, draft, r, hmore, hname, hcolon, .unknown hfind hread, h⟩
    · next m hfind =>
      split at h
      · exact absurd h (faultAfterName_ne_ok _ _ _)
      · next hnew =>
        obtain ⟨s₃, hcolon, h⟩ := Result.bind_eq_ok.1 h
        obtain ⟨⟨draft', r⟩, hread, h⟩ := Result.bind_eq_ok.1 h
        exact ⟨s₁, name, s₂, s₃, name :: seen, draft', r, hmore, hname, hcolon,
          .known hfind hnew hread, h⟩

/-- A record that has been read was filled from a list or from an object. -/
theorem record_eq_ok {name : String} {draft : σ} {finish : σ → Except Cause α} {s r : Bytes} {x : α}
    (h : record name members draft finish s = .ok (x, r)) : ∃ t d t', finish d = .ok x ∧
      (skipSpace s = 0x5b :: t ∧ closeList t' = .ok r ∧
          (∃ wanted, fillInOrder wanted 0 members draft t = .ok (d, t')) ∨
        skipSpace s = 0x7b :: t ∧ closeObject t' = .ok r ∧
          fill members (0x7b :: t) true [] draft t = .ok (d, t')) := by
  unfold record at h
  extract_lets done at h
  have finished {d : σ} {r' : Bytes} (hd : done d r' = .ok (x, r)) : finish d = .ok x ∧ r' = r := by
    dsimp only [done] at hd
    split at hd
    · next x' hx =>
      obtain ⟨rfl, rfl⟩ := Prod.mk.inj (Except.ok.inj hd)
      exact ⟨hx, rfl⟩
    · cases hd
  split at h
  · next t hs =>
    obtain ⟨⟨d, t'⟩, hfill, h⟩ := Result.bind_eq_ok.1 h
    obtain ⟨r', hclose, h⟩ := Result.bind_eq_ok.1 h
    obtain ⟨hfinish, rfl⟩ := finished h
    exact ⟨t, d, t', hfinish, .inl ⟨hs, hclose, _, hfill⟩⟩
  · next t hs =>
    obtain ⟨⟨d, t'⟩, hfill, h⟩ := Result.bind_eq_ok.1 h
    obtain ⟨r', hclose, h⟩ := Result.bind_eq_ok.1 h
    obtain ⟨hfinish, rfl⟩ := finished h
    exact ⟨t, d, t', hfinish, .inr ⟨hs, hclose, hfill⟩⟩
  · exact absurd h (refuse_ne_ok _ _ _)

theorem document_eq_ok {item : Reader α} {doc : Bytes} {x : α} (h : document item doc = .ok x) :
    ∃ r, item doc = .ok (x, r) ∧ skipSpace r = [] := by
  simp only [document, Result.mapError_eq_ok] at h
  obtain ⟨⟨x', r⟩, hitem, h⟩ := Result.bind_eq_ok.1 h
  dsimp only at h
  split at h
  · next hr =>
    cases h
    exact ⟨r, hitem, hr⟩
  · simp [faultOn] at h

theorem Writes.length_members {p : String × Tree} {ps : List (String × Tree)} {s : Bytes}
    (h : Writes (.members p ps) s) : ps.length + 1 ≤ s.length := by
  have one {p : String × Tree} {s : Bytes} (h : Writes (.member p) s) : 1 ≤ s.length := by
    cases h
    simp only [List.length_append, List.length_cons]
    omega
  induction ps generalizing p s with
  | nil =>
    cases h with
    | lastMember h => simpa using one h
  | cons q qs ih =>
    cases h with
    | moreMembers h hw hs =>
      have hfirst := one h
      have hothers := ih hs
      simp only [List.length_append, List.length_cons]
      omega

theorem record_of_fill {name : String} {draft d : σ} {finish : σ → Except Cause α} {s r rest : Bytes}
    {x : α} (hopen : skipSpace s = 0x7b :: r)
    (hfill : fill members (0x7b :: r) true [] draft r = .ok (d, 0x7d :: rest))
    (hfinish : finish d = .ok x) : record name members draft finish s = .ok (x, rest) := by
  simp only [record, hopen, hfill, bind, Except.bind, closeObject_brace, hfinish]

/-- An object that fits a record is read as that record if it repeats no name that the record
knows. -/
theorem reads_record {name : String} {draft : σ} {finish : σ → Except Cause α}
    {ps : List (String × Tree)} (hfits : ∀ q ∈ ps, Fits members effect q)
    (hnames : ∀ name, Knows members name → Once ps name) {x : α}
    (hfinish : finish (ps.foldl (fun d q => effect q d) draft) = .ok x) :
    Reads (record name members draft finish) (.object ps) x := by
  intro s h rest _
  cases h with
  | @emptyObject w w' hw hw' =>
    have hopen := skipSpace_quoted hw (b := 0x7b) (by decide) w' 0x7d rest
    exact record_of_fill hopen (fill_end hw' rest _ _ true [] draft) hfinish
  | @object w w' m ms s hw h hw' =>
    have hopen := skipSpace_bracketed hw (b := 0x7b) (by decide) s w' 0x7d rest
    have hfuel : ms.length + 1 < (0x7b :: (s ++ (w' ++ 0x7d :: rest))).length := by
      have := h.length_members
      simp only [List.length_append, List.length_cons]
      omega
    have hseen : ∀ q ∈ m :: ms, Knows members q.1 → q.1 ∉ ([] : List String) :=
      fun _ _ _ => List.not_mem_nil
    exact record_of_fill hopen (fill_members h hw' hfits hnames hseen hfuel rest rfl draft) hfinish

theorem document_of_reads {item : Reader α} {v : Tree} {x : α} (h : Reads item v x) {s w : Bytes}
    (hs : Writes (.value v) s) (hw : Blank w) : document item (s ++ w) = .ok x := by
  simp only [document, h s hs w (ends_of_blank hw), bind, Except.bind, skipSpace_of_blank hw]
  rfl

end Json
end TenantGate
