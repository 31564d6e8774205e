import TenantGate.Json.Value
import TenantGate.Proofs.JsonRecords
/-!
# Values that are kept whole

A tree whose numbers are not too large and that is not nested too deeply is read as a value.
-/

namespace TenantGate
namespace Json

section Numbers

variable {rest : Bytes}

theorem takeWhile_append_stops (h : ∀ b ∈ rest.head?, isDigit b = false) (s : Bytes) :
    (s ++ rest).takeWhile isDigit = s.takeWhile isDigit := by
  induction s with
  | nil =>
    have none_given : ∀ b ∈ ([] : Bytes), isDigit b = true := by simp
    simpa using takeWhile_digits none_given h
  | cons b s ih => cases hb : isDigit b <;> simp [hb, ih]

theorem dropWhile_append_stops (h : ∀ b ∈ rest.head?, isDigit b = false) (s : Bytes) :
    (s ++ rest).dropWhile isDigit = s.dropWhile isDigit ++ rest := by
  induction s with
  | nil =>
    have none_given : ∀ b ∈ ([] : Bytes), isDigit b = true := by simp
    simpa using dropWhile_digits none_given h
  | cons b s ih => cases hb : isDigit b <;> simp [hb, ih]

theorem gatherExponent_append (h : ∀ b ∈ rest.head?, isDigit b = false) (e : Nat) (s : Bytes) :
    gatherExponent e (s ++ rest) =
      match gatherExponent e s with
      | .ok (e, r) => .ok (e, r ++ rest)
      | .error r => .error (r ++ rest) := by
  induction s generalizing e with
  | nil =>
    cases rest with
    | nil => rfl
    | cons b r => simp [gatherExponent, h b rfl]
  | cons d s ih =>
    simp only [List.cons_append, gatherExponent]
    split
    · split
      · exact ih _
      · rfl
    · rfl

theorem finishDouble_append {positive : Bool} {n : Nat} {e : Int} {s r : Bytes} {x : Number}
    (h : finishDouble positive n e s = .ok (x, r)) :
    finishDouble positive n e (s ++ rest) = .ok (x, r ++ rest) := by
  unfold finishDouble at h ⊢
  split at h
  · cases h
    rfl
  · simp [faultAt] at h

theorem exponentDigits_append (hrest : StopsNumber rest) {positive up : Bool} {n : Nat} {e : Int}
    {s r : Bytes} {x : Number} (h : exponentDigits positive n e up s = .ok (x, r)) :
    exponentDigits positive n e up (s ++ rest) = .ok (x, r ++ rest) := by
  have hdigits := hrest.not_isDigit
  cases s with
  | nil => simp [exponentDigits, faultAt] at h
  | cons d s =>
    rw [List.cons_append]
    rw [exponentDigits] at h ⊢
    by_cases hd : isDigit d = true
    · rw [if_pos hd] at h ⊢
      rw [gatherExponent_append hdigits]
      cases he : gatherExponent (digitValue d) s with
      | ok p =>
        rw [he] at h
        exact finishDouble_append h
      | error s' =>
        rw [he] at h
        dsimp only at h ⊢
        by_cases hn : n ≠ 0 ∧ up = true
        · rw [if_pos hn] at h
          simp [faultAt] at h
        · rw [if_neg hn] at h ⊢
          cases h
          rw [dropWhile_append_stops hdigits]
    · rw [if_neg hd] at h
      simp [faultAt] at h

theorem readExponent_append (hrest : StopsNumber rest) {positive : Bool} {n : Nat} {e : Int}
    {s r : Bytes} {x : Number} (h : readExponent positive n e s = .ok (x, r)) :
    readExponent positive n e (s ++ rest) = .ok (x, r ++ rest) := by
  by_cases hs : s = []
  · subst hs
    simp [readExponent, faultAt] at h
  · obtain ⟨up, t, heq⟩ := readExponent_eq positive n e hs
    have h' := heq []
    rw [List.append_nil, List.append_nil, h] at h'
    rw [heq rest]
    exact exponentDigits_append hrest h'.symm

def choosePower {α : Type} (f g : Bytes → α) : Bytes → α
  | 0x65 :: r => f r
  | 0x45 :: r => f r
  | r => g r

theorem choosePower_cons {α : Type} (f g : Bytes → α) (b : UInt8) (s : Bytes) :
    choosePower f g (b :: s) = if b = 0x65 ∨ b = 0x45 then f s else g (b :: s) := by
  unfold choosePower
  split
  · next heq => cases heq; rfl
  · next heq => cases heq; rfl
  · next hlower hupper =>
    have hb : ¬(b = 0x65 ∨ b = 0x45) := by
      rintro (rfl | rfl)
      · exact hlower s rfl
      · exact hupper s rfl
    rw [if_neg hb]

theorem choosePower_append (hrest : StopsNumber rest) {f g : Bytes → Except Fault (Number × Bytes)}
    {r : Bytes} {x : Number} {s : Bytes}
    (hf : ∀ s, f s = .ok (x, r) → f (s ++ rest) = .ok (x, r ++ rest))
    (hg : ∀ s, g s = .ok (x, r) → g (s ++ rest) = .ok (x, r ++ rest))
    (h : choosePower f g s = .ok (x, r)) : choosePower f g (s ++ rest) = .ok (x, r ++ rest) := by
  cases s with
  | nil =>
    have hstop := hg [] h
    rw [List.nil_append] at hstop ⊢
    unfold choosePower
    split
    · exact absurd rfl (hrest _ rfl).2.2.1
    · exact absurd rfl (hrest _ rfl).2.2.2
    · exact hstop
  | cons b s =>
    rw [choosePower_cons] at h
    rw [List.cons_append, choosePower_cons]
    split at h
    · next hb =>
      rw [if_pos hb]
      exact hf s h
    · next hb =>
      rw [if_neg hb]
      exact hg (b :: s) h

theorem readFraction_append (hrest : StopsNumber rest) {positive : Bool} {n surplus : Nat}
    {s r : Bytes} {x : Number} (h : readFraction positive n surplus s = .ok (x, r)) :
    readFraction positive n surplus (s ++ rest) = .ok (x, r ++ rest) := by
  have hdigits := hrest.not_isDigit
  unfold readFraction at h ⊢
  rw [takeWhile_append_stops hdigits, dropWhile_append_stops hdigits]
  dsimp only at h ⊢
  split at h
  · split at h <;> simp [faultAt, faultOn] at h
  · next hne =>
    rw [if_neg hne]
    exact choosePower_append hrest (fun _ => readExponent_append hrest) (fun _ => finishDouble_append) h

theorem readAfterDigits_cons (positive : Bool) (n surplus : Nat) (b : UInt8) (s : Bytes) :
    readAfterDigits positive n surplus (b :: s) =
      if b = 0x2e then readFraction positive n surplus s
      else if b = 0x65 ∨ b = 0x45 then readExponent positive n surplus s
      else if surplus ≠ 0 then finishDouble positive n surplus (b :: s)
      else if positive then .ok (.unsigned n, b :: s)
      else if n = 0 ∨ 0x8000000000000000 < n then
        .ok (.double (signed false n.toUInt64.toFloat), b :: s)
      else .ok (.negative n, b :: s) := by
  unfold readAfterDigits
  split
  · next heq => cases heq; rfl
  · next heq => cases heq; rfl
  · next heq => cases heq; rfl
  · next hpoint hlower hupper =>
    have hb : b ≠ 0x2e ∧ ¬(b = 0x65 ∨ b = 0x45) := by
      refine ⟨?_, ?_⟩
      · rintro rfl
        exact hpoint s rfl
      · rintro (rfl | rfl)
        · exact hlower s rfl
        · exact hupper s rfl
    rw [if_neg hb.1, if_neg hb.2]

theorem readAfterDigits_append (hrest : StopsNumber rest) {positive : Bool} {n surplus : Nat}
    {s r : Bytes} {x : Number} (h : readAfterDigits positive n surplus s = .ok (x, r)) :
    readAfterDigits positive n surplus (s ++ rest) = .ok (x, r ++ rest) := by
  have hlast : ∀ s, (if surplus ≠ 0 then finishDouble positive n surplus s
      else if positive then .ok (.unsigned n, s)
      else if n = 0 ∨ 0x8000000000000000 < n then .ok (.double (signed false n.toUInt64.toFloat), s)
      else .ok (.negative n, s)) = .ok (x, r) →
      (if surplus ≠ 0 then finishDouble positive n surplus (s ++ rest)
      else if positive then .ok (.unsigned n, s ++ rest)
      else if n = 0 ∨ 0x8000000000000000 < n then
        .ok (.double (signed false n.toUInt64.toFloat), s ++ rest)
      else .ok (.negative n, s ++ rest)) = .ok (x, r ++ rest) := by
    intro s h
    split at h
    · next hs =>
      rw [if_pos hs]
      exact finishDouble_append h
    · next hs =>
      rw [if_neg hs]
      repeat' split at h
      all_goals
        cases h
        simp_all
  cases s with
  | nil =>
    have hstop := hlast [] h
    rw [List.nil_append] at hstop ⊢
    unfold readAfterDigits
    split
    · exact absurd rfl (hrest _ rfl).2.1
    · exact absurd rfl (hrest _ rfl).2.2.1
    · exact absurd rfl (hrest _ rfl).2.2.2
    · exact hstop
  | cons b s =>
    rw [readAfterDigits_cons] at h
    rw [List.cons_append, readAfterDigits_cons]
    split at h
    · next hpoint =>
      rw [if_pos hpoint]
      exact readFraction_append hrest h
    · next hpoint =>
      rw [if_neg hpoint]
      split at h
      · next hpower =>
        rw [if_pos hpower]
        exact readExponent_append hrest h
      · next hpower =>
        rw [if_neg hpower]
        exact hlast (b :: s) h

theorem readNumber_cons (positive : Bool) {d : UInt8} (hd : d ≠ 0x30) (s : Bytes) :
    readNumber positive (d :: s) =
      if isDigit d then
        readAfterDigits positive (gather (digitValue d) (s.takeWhile isDigit)).1
          (gather (digitValue d) (s.takeWhile isDigit)).2 (s.dropWhile isDigit)
      else faultAt .invalidNumber s := by
  unfold readNumber
  split
  · next heq => cases heq
  · next heq => exact absurd (List.cons.inj heq).1 hd
  · next heq =>
    obtain ⟨rfl, rfl⟩ := List.cons.inj heq
    rfl

theorem readNumber_append (hrest : StopsNumber rest) {positive : Bool} {s r : Bytes} {x : Number}
    (h : readNumber positive s = .ok (x, r)) :
    readNumber positive (s ++ rest) = .ok (x, r ++ rest) := by
  have hdigits := hrest.not_isDigit
  cases s with
  | nil => simp [readNumber, faultAt] at h
  | cons d s =>
    rw [List.cons_append]
    by_cases hzero : d = 0x30
    · subst hzero
      rw [readNumber] at h ⊢
      split at h
      · simp [faultOn] at h
      · next hstop =>
        have hhead : ((s ++ rest).head?.map isDigit).getD false = false := by
          cases s with
          | nil =>
            cases hb : rest.head? with
            | none => simp [hb]
            | some b => simp [hb, hdigits b hb]
          | cons c s => simpa using hstop
        rw [hhead, if_neg Bool.false_ne_true]
        exact readAfterDigits_append hrest h
    · rw [readNumber_cons positive hzero] at h
      rw [readNumber_cons positive hzero, takeWhile_append_stops hdigits,
        dropWhile_append_stops hdigits]
      split at h
      · next hd =>
        rw [if_pos hd]
        exact readAfterDigits_append hrest h
      · simp [faultAt] at h

end Numbers

theorem mapM_cons_eq_some {α β : Type} {f : α → Option β} {a : α} {l : List α} {ys : List β} :
    (a :: l).mapM f = some ys ↔ ∃ y ys', f a = some y ∧ l.mapM f = some ys' ∧ ys = y :: ys' := by
  simp only [List.mapM_cons, bind, Option.bind_eq_some_iff, pure, Option.some.injEq]
  constructor
  · rintro ⟨y, hy, ys', hys, rfl⟩
    exact ⟨y, ys', hy, hys, rfl⟩
  · rintro ⟨y, ys', hy, hys, rfl⟩
    exact ⟨y, hy, ys', hys, rfl⟩

section Sequences

variable {α : Type} {item : Reader α} {w : Bytes}

theorem hasElement_end (hw : Blank w) (first : Bool) (rest : Bytes) :
    hasElement first (w ++ 0x5d :: rest) = .ok (false, 0x5d :: rest) := by
  simp only [hasElement, skipSpace_close hw (b := 0x5d) (by decide)]

theorem hasElement_first {s r : Bytes} {b : UInt8} (h : skipSpace s = b :: r) (hb : IsLead b) :
    hasElement true s = .ok (true, b :: r) := by
  have hne : b ≠ 0x5d := hb.ne (by decide)
  simp [hasElement, h]

theorem hasElement_comma (hw : Blank w) {s r : Bytes} {b : UInt8} (h : skipSpace s = b :: r)
    (hb : IsLead b) : hasElement false (w ++ 0x2c :: s) = .ok (true, b :: r) := by
  have hne : b ≠ 0x5d := hb.ne (by decide)
  simp [hasElement, skipSpace_close hw (b := 0x2c) (by decide), h, hne]

theorem elements_writes (hitem : PassesBlanks item) {decode : Tree → Option α}
    (hdecode : ∀ v x, decode v = some x → Reads item v x) {v : Tree} {vs : List Tree} {s : Bytes}
    (h : Writes (.elements v vs) s) (hw : Blank w) {xs : List α}
    (hxs : (v :: vs).mapM decode = some xs) {fuel : Bytes} (hfuel : vs.length + 1 < fuel.length)
    (rest : Bytes) {first : Bool} {s₀ : Bytes}
    (hs₀ : hasElement first s₀ = hasElement true (s ++ (w ++ 0x5d :: rest))) :
    elements item fuel first s₀ = .ok (xs, 0x5d :: rest) := by
  induction vs generalizing v s s₀ fuel first xs with
  | nil =>
    cases h with
    | lastElement h =>
      match fuel, hfuel with
      | a :: b :: fuel, _ =>
        obtain ⟨x, _, hx, ⟨⟩, rfl⟩ := mapM_cons_eq_some.1 hxs
        obtain ⟨c, r, hc, hlead⟩ := h.exists_lead (w ++ 0x5d :: rest)
        have hread := hdecode v x hx s h (w ++ 0x5d :: rest) (Ends.blank_append hw (ends_bracket rest))
        rw [← hitem, hc] at hread
        rw [hasElement_first hc hlead.isLead] at hs₀
        simp [elements, hs₀, bind, Except.bind, hread, hasElement_end hw, pure, Except.pure]
  | cons v' vs ih =>
    cases h with
    | @element _ _ _ s s' w' h hw' hs =>
      match fuel, hfuel with
      | a :: fuel, hfuel =>
        obtain ⟨x, xs', hx, hxs', rfl⟩ := mapM_cons_eq_some.1 hxs
        obtain ⟨c, r, hc, hlead⟩ := h.exists_lead (w' ++ 0x2c :: (s' ++ (w ++ 0x5d :: rest)))
        have hread := hdecode v x hx s h (w' ++ 0x2c :: (s' ++ (w ++ 0x5d :: rest)))
          (Ends.blank_append hw' (ends_comma _))
        rw [← hitem, hc] at hread
        rw [List.append_assoc, List.append_assoc, List.cons_append,
          hasElement_first hc hlead.isLead] at hs₀
        obtain ⟨c', r', hc', hlead'⟩ := hs.exists_lead_elements (w ++ 0x5d :: rest)
        have hnext := (hasElement_comma hw' hc' hlead').trans (hasElement_first hc' hlead').symm
        have hothers := ih hs hxs' (by simpa using hfuel) hnext
        simp only [elements, hs₀, bind, Except.bind, hread, hothers]
        rfl

theorem Writes.length_elements {v : Tree} {vs : List Tree} {s : Bytes}
    (h : Writes (.elements v vs) s) : vs.length + 1 ≤ s.length := by
  have one {v : Tree} {s : Bytes} (h : Writes (.value v) s) : 1 ≤ s.length := by
    obtain ⟨b, r, hb, _⟩ := h.exists_lead []
    have hle := length_skipSpace_le (s ++ [])
    rw [hb, List.append_nil, List.length_cons] at hle
    omega
  induction vs generalizing v s with
  | nil =>
    cases h with
    | lastElement h => simpa using one h
  | cons v' vs ih =>
    cases h with
    | element h hw hs =>
      have hfirst := one h
      have hothers := ih hs
      simp only [List.length_append, List.length_cons]
      omega

theorem closeList_close (hw : Blank w) (rest : Bytes) : closeList (w ++ 0x5d :: rest) = .ok rest := by
  simp only [closeList, skipSpace_close hw (b := 0x5d) (by decide)]

theorem elements_of_list (hitem : PassesBlanks item) {decode : Tree → Option α}
    (hdecode : ∀ v x, decode v = some x → Reads item v x) {vs : List Tree} {s : Bytes}
    (h : Writes (.value (.list vs)) s) {xs : List α} (hxs : vs.mapM decode = some xs)
    (rest : Bytes) :
    ∃ r, skipSpace (s ++ rest) = 0x5b :: r ∧
      elements item (0x5b :: r) true r = .ok (xs, 0x5d :: rest) := by
  cases h with
  | @emptyList w w' hw hw' =>
    obtain rfl : xs = [] := by simpa [eq_comm] using hxs
    refine ⟨_, skipSpace_quoted hw (by decide) w' 0x5d rest, ?_⟩
    simp [elements, hasElement_end hw', bind, Except.bind, pure, Except.pure]
  | @list w w' v vs s hw h hw' =>
    refine ⟨_, skipSpace_bracketed hw (by decide) s w' 0x5d rest, ?_⟩
    refine elements_writes hitem hdecode h hw' hxs ?_ rest rfl
    have := h.length_elements
    simp only [List.length_append, List.length_cons]
    omega

theorem reads_list (hitem : PassesBlanks item) {decode : Tree → Option α}
    (hdecode : ∀ v x, decode v = some x → Reads item v x) {vs : List Tree} {xs : List α}
    (hxs : vs.mapM decode = some xs) : Reads (list item) (.list vs) xs := by
  intro s h rest _
  obtain ⟨r, hr, helements⟩ := elements_of_list hitem hdecode h hxs rest
  have hclose : closeList (0x5d :: rest) = .ok rest := closeList_close blank_nil rest
  simp only [list, bracketed, hr, helements, bind, Except.bind, hclose]
  rfl

theorem entries_end (hw : Blank w) (rest : Bytes) (b : UInt8) (fuel : Bytes) (first : Bool) :
    entries item (b :: fuel) first (w ++ 0x7d :: rest) = .ok ([], 0x7d :: rest) := by
  simp [entries, hasMember_end hw, bind, Except.bind, pure, Except.pure]

/-- The members of an object are read in their order. -/
theorem entries_writes {decode : Tree → Option α} (hdecode : ∀ v x, decode v = some x → Reads item v x)
    {p : String × Tree} {ps : List (String × Tree)} {s : Bytes} (h : Writes (.members p ps) s)
    (hw : Blank w) {xs : List (String × α)}
    (hxs : (p :: ps).mapM (fun q => (decode q.2).map (q.1, ·)) = some xs) {fuel : Bytes}
    (hfuel : ps.length + 1 < fuel.length) (rest : Bytes) {first : Bool} {s₀ : Bytes}
    (hs₀ : hasMember first s₀ = hasMember true (s ++ (w ++ 0x7d :: rest))) :
    entries item fuel first s₀ = .ok (xs, 0x7d :: rest) := by
  induction ps generalizing p s s₀ fuel first xs with
  | nil =>
    cases h with
    | lastMember h =>
      match fuel, hfuel with
      | a :: b :: fuel, _ =>
        obtain ⟨_, _, hp, ⟨⟩, rfl⟩ := mapM_cons_eq_some.1 hxs
        obtain ⟨x, hx, rfl⟩ := Option.map_eq_some_iff.1 hp
        obtain ⟨_, _, s', hmore, hname, hcolon, hvalue⟩ := h.member_steps _ hs₀
        have hread := hdecode p.2 x hx s' hvalue _ (Ends.blank_append hw (ends_brace rest))
        rw [entries]
        simp only [hmore, bind, Except.bind, if_true, hname, hcolon, hread, entries_end hw]
        rfl
  | cons q qs ih =>
    cases h with
    | @moreMembers _ _ _ s s' w' h hw' hs =>
      match fuel, hfuel with
      | a :: fuel, hfuel =>
        obtain ⟨_, xs', hp, hxs', rfl⟩ := mapM_cons_eq_some.1 hxs
        obtain ⟨x, hx, rfl⟩ := Option.map_eq_some_iff.1 hp
        rw [List.append_assoc, List.append_assoc, List.cons_append] at hs₀
        obtain ⟨_, _, s₁, hmore, hname, hcolon, hvalue⟩ := h.member_steps _ hs₀
        have hread := hdecode p.2 x hx s₁ hvalue _
          (Ends.blank_append hw' (ends_comma (s' ++ (w ++ 0x7d :: rest))))
        obtain ⟨r, hr⟩ := hs.exists_quote_members (w ++ 0x7d :: rest)
        have hnext := (hasMember_comma hw' hr).trans (hasMember_first hr).symm
        have hothers := ih hs hxs' (by simpa using hfuel) hnext
        simp only [entries, hmore, bind, Except.bind, if_true, hname, hcolon, hread, hothers]
        rfl

theorem entries_of_object {decode : Tree → Option α}
    (hdecode : ∀ v x, decode v = some x → Reads item v x) {ps : List (String × Tree)} {s : Bytes}
    (h : Writes (.value (.object ps)) s) {xs : List (String × α)}
    (hxs : ps.mapM (fun q => (decode q.2).map (q.1, ·)) = some xs) (rest : Bytes) :
    ∃ r, skipSpace (s ++ rest) = 0x7b :: r ∧
      entries item (0x7b :: r) true r = .ok (xs, 0x7d :: rest) := by
  cases h with
  | @emptyObject w w' hw hw' =>
    obtain rfl : xs = [] := by simpa [eq_comm] using hxs
    exact ⟨_, skipSpace_quoted hw (by decide) w' 0x7d rest, entries_end hw' rest _ _ true⟩
  | @object w w' m ms s hw h hw' =>
    refine ⟨_, skipSpace_bracketed hw (by decide) s w' 0x7d rest, ?_⟩
    refine entries_writes hdecode h hw' hxs ?_ rest rfl
    have := h.length_members
    simp only [List.length_append, List.length_cons]
    omega

end Sequences

/-- What is kept of a numeral, if it is not too large. -/
def Numeral.number? (n : Numeral) : Option Number :=
  match readNumber (!n.negative) n.magnitude with
  | .ok (x, []) => some x
  | _ => none

/-- What is kept of a tree in which at most `depth` brackets are open at a time. -/
def Tree.value? : (depth : Nat) → Tree → Option Value
  | _, .null => some .null
  | _, .boolean b => some (.boolean b)
  | _, .number n => n.number?.map .number
  | _, .text s => some (.text s)
  | 0, .list _ => none
  | 0, .object _ => none
  | depth + 1, .list vs => (vs.mapM (value? depth)).map .list
  | depth + 1, .object ps => (ps.mapM fun p => (value? depth p.2).map (p.1, ·)).map .object

/-- A numeral is read up to its end. -/
theorem Numeral.readNumber_bytes {n : Numeral} {x : Number} (h : n.number? = some x) {rest : Bytes}
    (hrest : Ends rest) : readNumber (!n.negative) (n.magnitude ++ rest) = .ok (x, rest) := by
  unfold number? at h
  split at h
  · next hok =>
    cases h
    exact readNumber_append hrest.stopsNumber hok
  · simp at h

theorem Numeral.skipSpace_bytes (n : Numeral) {w : Bytes} (hw : Blank w) (rest : Bytes) :
    n.negative = true ∧ skipSpace (w ++ n.bytes ++ rest) = 0x2d :: (n.magnitude ++ rest) ∨
      n.negative = false ∧ ∃ d r, isDigit d = true ∧ n.magnitude ++ rest = d :: r ∧
        skipSpace (w ++ n.bytes ++ rest) = d :: r := by
  rw [List.append_assoc]
  cases hneg : n.negative with
  | true =>
    have hbytes : n.bytes ++ rest = 0x2d :: (n.magnitude ++ rest) := by simp [bytes, hneg]
    rw [hbytes, skipSpace_lead hw (by decide)]
    exact .inl ⟨rfl, rfl⟩
  | false =>
    obtain ⟨d, ds, hds, hd, _⟩ := n.whole.exists_cons
    have hmagnitude : n.magnitude ++ rest = d :: (ds ++ n.tail ++ rest) := by
      simp [magnitude, hds]
    have hbytes : n.bytes = n.magnitude := by simp [bytes, hneg]
    rw [hbytes, hmagnitude, skipSpace_lead hw (by simp [IsLead, hd])]
    exact .inr ⟨rfl, d, _, hd, rfl, rfl⟩

theorem reads_number {α : Type} {wanted : String} {check : Number → Except Cause α} {n : Numeral}
    {x : Number} {y : α} (hx : n.number? = some x) (hy : check x = .ok y) :
    Reads (number wanted check) (.number n) y := by
  intro s h rest hrest
  cases h with
  | @number w hw n =>
    have hread := n.readNumber_bytes hx hrest
    rcases n.skipSpace_bytes hw rest with ⟨hneg, hs⟩ | ⟨hneg, d, r, hd, heq, hs⟩
    · rw [hneg] at hread
      exact number_of_minus hs hread hy
    · rw [hneg, heq] at hread
      exact number_of_digit hs hd hread hy

theorem Value.passesBlanks_read (depth : Nat) : PassesBlanks (Value.read depth) := by
  intro s
  cases depth with
  | zero => simp only [Value.read, skipSpace_idem]
  | succ depth => simp only [Value.read, Value.readLayer, skipSpace_idem]

def Tree.IsScalar : Tree → Prop
  | .list _ => False
  | .object _ => False
  | _ => True

theorem Value.readScalar_writes {v : Tree} (hv : v.IsScalar) {x : Value} {depth : Nat}
    (hx : v.value? depth = some x) {s : Bytes} (h : Writes (.value v) s) {rest : Bytes}
    (hrest : Ends rest) : Value.readScalar (skipSpace (s ++ rest)) = .ok (x, rest) := by
  cases h with
  | null hw =>
    obtain rfl : Value.null = x := by simpa [Tree.value?] using hx
    have hword := word_append [0x75, 0x6c, 0x6c] rest
    rw [List.append_assoc, List.cons_append, skipSpace_lead hw (by decide)]
    simp only [readScalar, hword]
    rfl
  | yes hw =>
    obtain rfl : Value.boolean true = x := by simpa [Tree.value?] using hx
    have hword := word_append [0x72, 0x75, 0x65] rest
    rw [List.append_assoc, List.cons_append, skipSpace_lead hw (by decide)]
    simp only [readScalar, hword]
    rfl
  | no hw =>
    obtain rfl : Value.boolean false = x := by simpa [Tree.value?] using hx
    have hword := word_append [0x61, 0x6c, 0x73, 0x65] rest
    rw [List.append_assoc, List.cons_append, skipSpace_lead hw (by decide)]
    simp only [readScalar, hword]
    rfl
  | @number w hw n =>
    obtain ⟨y, hy, rfl⟩ : ∃ y, n.number? = some y ∧ Value.number y = x := by
      cases depth <;> simpa [Tree.value?] using hx
    have hread := n.readNumber_bytes hy hrest
    rcases n.skipSpace_bytes hw rest with ⟨hneg, hs⟩ | ⟨hneg, d, r, hd, heq, hs⟩
    · rw [hneg] at hread
      rw [hs]
      simp only [Bool.not_true] at hread
      simp [readScalar, hread, Except.map]
    · rw [hneg, heq] at hread
      have hne : d ≠ 0x6e ∧ d ≠ 0x74 ∧ d ≠ 0x66 ∧ d ≠ 0x2d := by
        refine ⟨?_, ?_, ?_, ?_⟩ <;> exact ne_of_isDigit hd (by decide)
      rw [hs]
      simp only [Bool.not_false] at hread
      simp only [readScalar, hne, hd, if_true, if_false, hread]
      rfl
  | text hw h =>
    obtain rfl : Value.text _ = x := by simpa [Tree.value?] using hx
    have hread := readText_spells h rest
    rw [List.append_assoc, List.cons_append, skipSpace_lead hw (by decide)]
    simp [readScalar, isDigit, hread, Except.map]
  | emptyList | list | emptyObject | object => exact absurd hv id

theorem Value.read_of_head {s r : Bytes} {b : UInt8} (h : skipSpace s = b :: r) (hlist : b ≠ 0x5b)
    (hobject : b ≠ 0x7b) (depth : Nat) : Value.read depth s = Value.readScalar (b :: r) := by
  cases depth with
  | zero =>
    simp only [Value.read, h]
    split
    · next heq => exact absurd (List.cons.inj heq).1 hlist
    · next heq => exact absurd (List.cons.inj heq).1 hobject
    · rfl
  | succ depth =>
    simp only [Value.read, Value.readLayer, h]
    split
    · next heq => exact absurd (List.cons.inj heq).1 hlist
    · next heq => exact absurd (List.cons.inj heq).1 hobject
    · rfl

/-- No bracket is opened where a scalar stands. -/
theorem Value.read_eq_readScalar {v : Tree} (hv : v.IsScalar) {s : Bytes} (h : Writes (.value v) s)
    (depth : Nat) (rest : Bytes) :
    Value.read depth (s ++ rest) = Value.readScalar (skipSpace (s ++ rest)) := by
  obtain ⟨b, r, hb, hlead⟩ := h.exists_lead rest
  have hne : b ≠ 0x5b ∧ b ≠ 0x7b := by
    cases v with
    | list | object => exact absurd hv id
    | null | text =>
      obtain rfl := hlead
      decide
    | boolean value =>
      cases value <;>
        (obtain rfl := hlead
         decide)
    | number n =>
      rcases hlead with rfl | hd
      · decide
      · exact ⟨ne_of_isDigit hd (by decide), ne_of_isDigit hd (by decide)⟩
  rw [hb]
  exact Value.read_of_head hb hne.1 hne.2 depth

theorem Value.read_of_isScalar {v : Tree} (hv : v.IsScalar) {x : Value} {depth : Nat}
    (hx : v.value? depth = some x) : Reads (Value.read depth) v x := by
  intro s h rest hrest
  rw [Value.read_eq_readScalar hv h]
  exact Value.readScalar_writes hv hx h hrest

theorem Value.reads_of_value? {depth : Nat} {v : Tree} {x : Value} (hx : v.value? depth = some x) :
    Reads (Value.read depth) v x := by
  induction depth generalizing v x with
  | zero =>
    cases v with
    | list | object => simp [Tree.value?] at hx
    | null | boolean | number | text => exact Value.read_of_isScalar (by trivial) hx
  | succ depth ih =>
    cases v with
    | null | boolean | number | text => exact Value.read_of_isScalar (by trivial) hx
    | list vs =>
      obtain ⟨xs, hxs, rfl⟩ := Option.map_eq_some_iff.1 hx
      intro s h rest _
      obtain ⟨r, hr, helements⟩ := elements_of_list (Value.passesBlanks_read depth)
        (fun v x hx => ih hx) h hxs rest
      simp only [Value.read, Value.readLayer, hr, helements]
      exact closing_ok (closeList_close blank_nil rest) _
    | object ps =>
      obtain ⟨xs, hxs, rfl⟩ := Option.map_eq_some_iff.1 hx
      intro s h rest _
      obtain ⟨r, hr, hentries⟩ := entries_of_object (fun v x hx => ih hx) h hxs rest
      simp only [Value.read, Value.readLayer, hr, hentries]
      exact closing_ok (closeObject_brace rest) _

end Json
end TenantGate
