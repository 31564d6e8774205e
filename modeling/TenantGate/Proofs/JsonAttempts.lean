import TenantGate.Proofs.JsonValues
/-!
# Values that are let go

A value that is read and let go does no harm if reading stops where it ends.  So it does for each
value that can be kept, and after a number that is too large but has been read up to its last
digit: then the brackets around it are closed, as long as nothing else stands inside them.
-/

namespace TenantGate
namespace Json

variable {α : Type} {rest : Bytes}

/-- However a document writes the tree, reading stops at its end. -/
def StopsAfter (item : Reader α) (v : Tree) : Prop :=
  ∀ s, Writes (.value v) s → ∀ rest, Ends rest → stop (item (s ++ rest)) = rest

theorem Reads.stopsAfter {item : Reader α} {v : Tree} {x : α} (h : Reads item v x) :
    StopsAfter item v := by
  intro s hs rest hrest
  rw [h s hs rest hrest, stop]

theorem StopsAfter.reads_attempt {item : Reader α} {v : Tree} (h : StopsAfter item v) :
    Reads (attempt item) v () := by
  intro s hs rest hrest
  rw [attempt, h s hs rest hrest]

theorem stop_finishDouble (positive : Bool) (n : Nat) (e : Int) (s : Bytes) :
    stop (finishDouble positive n e s) = s := by
  unfold finishDouble
  split <;> rfl

theorem gatherExponent_stops (hrest : ∀ b ∈ rest.head?, isDigit b = false) {e : Nat} {ds : Bytes}
    (hds : ∀ b ∈ ds, isDigit b = true)
    (hfits : ds.foldl (fun n b => n * 10 + digitValue b) e / 10 ≤ maxExponent) :
    (∃ k, gatherExponent e (ds ++ rest) = .ok (k, rest)) ∨
      gatherExponent e (ds ++ rest) = .error rest := by
  induction ds generalizing e with
  | nil =>
    cases rest with
    | nil => exact .inl ⟨e, rfl⟩
    | cons b r => exact .inl ⟨e, by simp [gatherExponent, hrest b rfl]⟩
  | cons d ds ih =>
    rw [List.cons_append, gatherExponent, if_pos (hds d List.mem_cons_self)]
    split
    · exact ih (fun b hb => hds b (List.mem_cons_of_mem d hb)) hfits
    · next hover =>
      cases ds with
      | nil => exact .inr rfl
      | cons c ds =>
        -- Another digit would make the number ten times as large as what fits.
        have hle := le_foldl_digits ((e * 10 + digitValue d) * 10 + digitValue c) ds
        simp only [List.foldl_cons] at hfits
        omega

theorem stop_exponentDigits (hrest : Ends rest) {d : Digits} (hfits : d.value / 10 ≤ maxExponent)
    (positive up : Bool) (n : Nat) (start : Int) :
    stop (exponentDigits positive n start up (d.bytes ++ rest)) = rest := by
  obtain ⟨b, ds, hb, hdigit, hds⟩ := d.exists_cons
  have hvalue : ds.foldl (fun n b => n * 10 + digitValue b) (digitValue b) = d.value := by
    rw [Digits.value, hb, List.foldl_cons, Nat.zero_mul, Nat.zero_add]
  rw [hb, List.cons_append, exponentDigits, if_pos hdigit]
  rcases gatherExponent_stops hrest.not_isDigit hds (hvalue ▸ hfits) with ⟨k, hk⟩ | hover
  · rw [hk]
    exact stop_finishDouble _ _ _ _
  · rw [hover]
    dsimp only
    split
    · rfl
    · have none_left : ∀ b ∈ ([] : Bytes), isDigit b = true := by simp
      exact dropWhile_digits none_left hrest.not_isDigit

namespace Numeral

/-- Without its last digit, the exponent fits in 31 bits. -/
def IsBounded (n : Numeral) : Prop := ∀ e, n.exponent = some e → e.digits.value / 10 ≤ maxExponent

theorem stop_readExponent (hrest : Ends rest) {e : Exponent}
    (hfits : e.digits.value / 10 ≤ maxExponent)
    (positive : Bool) (n : Nat) (start : Int) :
    stop (readExponent positive n start ((match e.sign with
      | some true => [0x2d] | some false => [0x2b] | none => []) ++ e.digits.bytes ++ rest)) = rest := by
  have hstop := fun up => stop_exponentDigits hrest hfits positive up n start
  cases e.sign with
  | some negative => cases negative <;> exact hstop _
  | none =>
    obtain ⟨b, ds, hb, hdigit, _⟩ := e.digits.exists_cons
    rw [List.nil_append]
    rw [hb, List.cons_append] at hstop ⊢
    rw [readExponent_unsigned _ _ _ (ne_of_isDigit hdigit (by decide))
      (ne_of_isDigit hdigit (by decide))]
    exact hstop true

theorem stop_readFraction (hrest : Ends rest) {n : Numeral} (hn : n.IsBounded) (d : Digits)
    (positive : Bool) (m surplus : Nat) :
    stop (readFraction positive m surplus (d.bytes ++ (n.power ++ rest))) = rest := by
  have hdigits : ∀ b ∈ (n.power ++ rest).head?, isDigit b = false :=
    fun b hb => (n.power_head hrest b hb).1
  rw [readFraction, takeWhile_digits d.all_digits hdigits, dropWhile_digits d.all_digits hdigits,
    if_neg (by simpa using d.ne_nil)]
  unfold Numeral.power
  cases he : n.exponent with
  | none =>
    dsimp only [List.nil_append]
    split
    · exact absurd rfl (hrest.stopsNumber _ rfl).2.2.1
    · exact absurd rfl (hrest.stopsNumber _ rfl).2.2.2
    · exact stop_finishDouble _ _ _ _
  | some e =>
    have hstop := stop_readExponent hrest (hn e he) positive
    dsimp only [Exponent.bytes]
    cases e.upper <;> exact hstop _ _

theorem stop_readAfterDigits (hrest : Ends rest) {n : Numeral} (hn : n.IsBounded) (positive : Bool)
    (m surplus : Nat) : stop (readAfterDigits positive m surplus (n.tail ++ rest)) = rest := by
  rw [n.tail_eq]
  cases n.fraction with
  | some d =>
    rw [List.append_assoc]
    exact stop_readFraction hrest hn d positive m surplus
  | none =>
    rw [List.nil_append]
    unfold Numeral.power
    cases he : n.exponent with
    | none =>
      dsimp only [List.nil_append]
      unfold readAfterDigits
      split
      · exact absurd rfl (hrest.stopsNumber _ rfl).2.1
      · exact absurd rfl (hrest.stopsNumber _ rfl).2.2.1
      · exact absurd rfl (hrest.stopsNumber _ rfl).2.2.2
      · split
        · exact stop_finishDouble _ _ _ _
        · split
          · rfl
          · split <;> rfl
    | some e =>
      have hstop := stop_readExponent hrest (hn e he) positive
      dsimp only [Exponent.bytes]
      cases e.upper <;> exact hstop _ _

theorem stop_readNumber (hrest : Ends rest) {n : Numeral} (hn : n.IsBounded) (positive : Bool) :
    stop (readNumber positive (n.magnitude ++ rest)) = rest := by
  rw [magnitude, List.append_assoc, readNumber_whole n positive (n.tail_head hrest)]
  exact stop_readAfterDigits hrest hn _ _ _

end Numeral

theorem stop_map {β : Type} (f : α → β) (x : Except Fault (α × Bytes)) :
    stop (x.map fun p => (f p.1, p.2)) = stop x := by
  cases x <;> rfl

theorem stop_bind {β : Type} (f : α → β) (x : Except Fault (α × Bytes)) :
    stop (x.bind fun p => pure (f p.1, p.2)) = stop x := by
  cases x <;> rfl

theorem Value.stopsAfter_number {n : Numeral} (hn : n.IsBounded) (depth : Nat) :
    StopsAfter (Value.read depth) (.number n) := by
  intro s h rest hrest
  have hscalar : (Tree.number n).IsScalar := trivial
  rw [Value.read_eq_readScalar hscalar h]
  cases h with
  | @number w hw n =>
    have hstop := Numeral.stop_readNumber hrest hn (!n.negative)
    rcases n.skipSpace_bytes hw rest with ⟨hneg, hs⟩ | ⟨hneg, d, r, hd, heq, hs⟩
    · rw [hneg] at hstop
      rw [hs]
      exact (stop_map _ _).trans hstop
    · have hne : d ≠ 0x6e ∧ d ≠ 0x74 ∧ d ≠ 0x66 ∧ d ≠ 0x2d := by
        refine ⟨?_, ?_, ?_, ?_⟩ <;> exact ne_of_isDigit hd (by decide)
      rw [hneg, heq] at hstop
      rw [hs]
      simp only [readScalar, hne, hd, if_true, if_false]
      exact (stop_map _ _).trans hstop

section Sequences

variable {item : Reader α} {w : Bytes}

/-- If reading stops after the last element, it stops in front of the closing bracket. -/
theorem elements_stops (hitem : PassesBlanks item) {v : Tree} {vs : List Tree} {s : Bytes}
    (h : Writes (.elements v vs) s) (hw : Blank w)
    (hinit : ∀ u ∈ (v :: vs).dropLast, ∃ x, Reads item u x)
    (hlast : ∀ u ∈ (v :: vs).getLast?, StopsAfter item u) {fuel : Bytes}
    (hfuel : vs.length + 1 < fuel.length) (rest : Bytes) {first : Bool} {s₀ : Bytes}
    (hs₀ : hasElement first s₀ = hasElement true (s ++ (w ++ 0x5d :: rest))) :
    skipSpace (stop (elements item fuel first s₀)) = 0x5d :: rest := by
  have hclose := skipSpace_close hw (b := 0x5d) (by decide) rest
  induction vs generalizing v s s₀ fuel first with
  | nil =>
    cases h with
    | lastElement h =>
      rcases fuel with _ | ⟨a, _ | ⟨b, fuel⟩⟩
      · simp at hfuel
      · simp at hfuel
      · obtain ⟨c, r, hc, hlead⟩ := h.exists_lead (w ++ 0x5d :: rest)
        have hstop := hlast v rfl s h (w ++ 0x5d :: rest) (Ends.blank_append hw (ends_bracket rest))
        rw [← hitem, hc] at hstop
        rw [hasElement_first hc hlead.isLead] at hs₀
        rw [elements]
        simp only [hs₀, bind, Except.bind, if_true]
        cases hread : item (c :: r) with
        | error f =>
          rw [hread, stop] at hstop
          rw [stop, hstop, hclose]
        | ok p =>
          rw [hread, stop] at hstop
          simp only [hstop, elements, hasElement_end hw, bind, Except.bind]
          rfl
  | cons v' vs ih =>
    cases h with
    | @element _ _ _ s s' w' h hw' hs =>
      rcases fuel with _ | ⟨a, fuel⟩
      · simp at hfuel
      · obtain ⟨x, hx⟩ := hinit v List.mem_cons_self
        obtain ⟨c, r, hc, hlead⟩ := h.exists_lead (w' ++ 0x2c :: (s' ++ (w ++ 0x5d :: rest)))
        have hread := hx s h (w' ++ 0x2c :: (s' ++ (w ++ 0x5d :: rest)))
          (Ends.blank_append hw' (ends_comma _))
        rw [← hitem, hc] at hread
        rw [List.append_assoc, List.append_assoc, List.cons_append,
          hasElement_first hc hlead.isLead] at hs₀
        obtain ⟨c', r', hc', hlead'⟩ := hs.exists_lead_elements (w ++ 0x5d :: rest)
        have hnext := (hasElement_comma hw' hc' hlead').trans (hasElement_first hc' hlead').symm
        have hothers := ih hs (fun u hu => hinit u (List.mem_cons_of_mem v hu))
          (by simpa using hlast) (by simpa using hfuel) hnext
        rw [elements]
        simp only [hs₀, bind, Except.bind, if_true, hread]
        exact (congrArg skipSpace (stop_bind (x :: ·) _)).trans hothers

theorem entries_stops {p : String × Tree} {ps : List (String × Tree)} {s : Bytes}
    (h : Writes (.members p ps) s) (hw : Blank w)
    (hinit : ∀ q ∈ (p :: ps).dropLast, ∃ x, Reads item q.2 x)
    (hlast : ∀ q ∈ (p :: ps).getLast?, StopsAfter item q.2) {fuel : Bytes}
    (hfuel : ps.length + 1 < fuel.length) (rest : Bytes) {first : Bool} {s₀ : Bytes}
    (hs₀ : hasMember first s₀ = hasMember true (s ++ (w ++ 0x7d :: rest))) :
    skipSpace (stop (entries item fuel first s₀)) = 0x7d :: rest := by
  have hclose := skipSpace_close hw (b := 0x7d) (by decide) rest
  induction ps generalizing p s s₀ fuel first with
  | nil =>
    cases h with
    | lastMember h =>
      rcases fuel with _ | ⟨a, _ | ⟨b, fuel⟩⟩
      · simp at hfuel
      · simp at hfuel
      · obtain ⟨_, _, s', hmore, hname, hcolon, hvalue⟩ := h.member_steps _ hs₀
        have hstop := hlast p rfl s' hvalue (w ++ 0x7d :: rest) (Ends.blank_append hw (ends_brace rest))
        rw [entries]
        simp only [hmore, bind, Except.bind, if_true, hname, hcolon]
        cases hread : item (s' ++ (w ++ 0x7d :: rest)) with
        | error f =>
          rw [hread, stop] at hstop
          rw [stop, hstop, hclose]
        | ok p =>
          rw [hread, stop] at hstop
          simp only [hstop, entries_end hw]
          rfl
  | cons q ps ih =>
    cases h with
    | @moreMembers _ _ _ s s' w' h hw' hs =>
      rcases fuel with _ | ⟨a, fuel⟩
      · simp at hfuel
      · obtain ⟨x, hx⟩ := hinit p List.mem_cons_self
        rw [List.append_assoc, List.append_assoc, List.cons_append] at hs₀
        obtain ⟨_, _, s₁, hmore, hname, hcolon, hvalue⟩ := h.member_steps _ hs₀
        have hread := hx s₁ hvalue _
          (Ends.blank_append hw' (ends_comma (s' ++ (w ++ 0x7d :: rest))))
        obtain ⟨r, hr⟩ := hs.exists_quote_members (w ++ 0x7d :: rest)
        have hnext := (hasMember_comma hw' hr).trans (hasMember_first hr).symm
        have hothers := ih hs (fun u hu => hinit u (List.mem_cons_of_mem p hu))
          (by simpa using hlast) (by simpa using hfuel) hnext
        rw [entries]
        simp only [hmore, bind, Except.bind, if_true, hname, hcolon, hread]
        exact (congrArg skipSpace (stop_bind ((p.1, x) :: ·) _)).trans hothers

end Sequences

theorem closeList_of_skipSpace {s : Bytes} (h : skipSpace s = 0x5d :: rest) :
    closeList s = .ok rest := by
  simp only [closeList, h]

theorem closeObject_of_skipSpace {s : Bytes} (h : skipSpace s = 0x7d :: rest) :
    closeObject s = .ok rest := by
  simp only [closeObject, h]

/-- A tree of which no reading stops in the middle, while at most `depth` brackets are open at a
time: only what stands last in each bracket may be a number that is too large. -/
def Tree.Passes : (depth : Nat) → Tree → Prop
  | _, .null => True
  | _, .boolean _ => True
  | _, .number n => n.number?.isSome = true ∨ n.IsBounded
  | _, .text _ => True
  | 0, .list _ => False
  | 0, .object _ => False
  | depth + 1, .list vs =>
    (∀ v ∈ vs.dropLast, (v.value? depth).isSome = true) ∧ ∀ v ∈ vs.getLast?, v.Passes depth
  | depth + 1, .object ps =>
    (∀ p ∈ ps.dropLast, (p.2.value? depth).isSome = true) ∧ ∀ p ∈ ps.getLast?, p.2.Passes depth

namespace Value

theorem stopsAfter_of_value? {depth : Nat} {v : Tree} (h : (v.value? depth).isSome = true) :
    StopsAfter (read depth) v := by
  obtain ⟨x, hx⟩ := Option.isSome_iff_exists.1 h
  exact (reads_of_value? hx).stopsAfter

theorem exists_reads {depth : Nat} {v : Tree} (h : (v.value? depth).isSome = true) :
    ∃ x, Reads (read depth) v x := by
  obtain ⟨x, hx⟩ := Option.isSome_iff_exists.1 h
  exact ⟨x, reads_of_value? hx⟩

theorem stopsAfter_list {depth : Nat} {vs : List Tree}
    (hinit : ∀ v ∈ vs.dropLast, ∃ x, Reads (read depth) v x)
    (hlast : ∀ v ∈ vs.getLast?, StopsAfter (read depth) v) :
    StopsAfter (read (depth + 1)) (.list vs) := by
  intro s h rest _
  cases h with
  | @emptyList w w' hw hw' =>
    have hopen := skipSpace_quoted hw (b := 0x5b) (by decide) w' 0x5d rest
    simp only [read, readLayer, hopen]
    refine stop_closing (closeList_of_skipSpace ?_)
    rw [stop_map, elements, hasElement_end hw']
    exact skipSpace_cons (by decide) rest
  | @list w w' v vs s hw h hw' =>
    have hopen := skipSpace_bracketed hw (b := 0x5b) (by decide) s w' 0x5d rest
    have hlength := h.length_elements
    simp only [read, readLayer, hopen]
    refine stop_closing (closeList_of_skipSpace ?_)
    rw [stop_map]
    refine elements_stops (passesBlanks_read depth) h hw' hinit hlast ?_ rest rfl
    simp only [List.length_append, List.length_cons]
    omega

theorem stopsAfter_object {depth : Nat} {ps : List (String × Tree)}
    (hinit : ∀ p ∈ ps.dropLast, ∃ x, Reads (read depth) p.2 x)
    (hlast : ∀ p ∈ ps.getLast?, StopsAfter (read depth) p.2) :
    StopsAfter (read (depth + 1)) (.object ps) := by
  intro s h rest _
  cases h with
  | @emptyObject w w' hw hw' =>
    have hopen := skipSpace_quoted hw (b := 0x7b) (by decide) w' 0x7d rest
    simp only [read, readLayer, hopen]
    refine stop_closing (closeObject_of_skipSpace ?_)
    rw [stop_map, entries_end hw']
    exact skipSpace_cons (by decide) rest
  | @object w w' p ps s hw h hw' =>
    have hopen := skipSpace_bracketed hw (b := 0x7b) (by decide) s w' 0x7d rest
    have hlength := h.length_members
    simp only [read, readLayer, hopen]
    refine stop_closing (closeObject_of_skipSpace ?_)
    rw [stop_map]
    refine entries_stops h hw' hinit hlast ?_ rest rfl
    simp only [List.length_append, List.length_cons]
    omega

theorem stopsAfter_scalar {v : Tree} (hv : v.IsScalar) {depth : Nat} (h : v.Passes depth) :
    StopsAfter (read depth) v := by
  cases v with
  | null | boolean | text => exact stopsAfter_of_value? (by cases depth <;> rfl)
  | number n =>
    have hn : n.number?.isSome = true ∨ n.IsBounded := by cases depth <;> exact h
    rcases hn with hkept | hbounded
    · exact stopsAfter_of_value? (by cases depth <;> simpa [Tree.value?] using hkept)
    · exact stopsAfter_number hbounded depth
  | list | object => exact absurd hv id

/-- Reading stops after a tree that passes, whether it can be kept or not. -/
theorem stopsAfter_of_passes {depth : Nat} {v : Tree} (h : v.Passes depth) :
    StopsAfter (read depth) v := by
  induction depth generalizing v with
  | zero =>
    cases v with
    | null | boolean | number | text => exact stopsAfter_scalar (by trivial) h
    | list | object => exact absurd h id
  | succ depth ih =>
    cases v with
    | null | boolean | number | text => exact stopsAfter_scalar (by trivial) h
    | list vs =>
      exact stopsAfter_list (fun v hv => exists_reads (h.1 v hv)) fun v hv => ih (h.2 v hv)
    | object ps =>
      exact stopsAfter_object (fun p hp => exists_reads (h.1 p hp)) fun p hp => ih (h.2 p hp)

end Value
end Json
end TenantGate
