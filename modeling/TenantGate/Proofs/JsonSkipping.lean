import TenantGate.Proofs.JsonGrammar
/-!
# Values that are passed over

Whatever a document writes is passed over to its end, at any depth and in any layout.
-/

namespace TenantGate
namespace Json

theorem shortEscape?_u : shortEscape? 0x75 = none := by decide

theorem fourDigits_isHex {n : Nat} {a b c d : UInt8} (h : IsHex n a b c d) (rest : Bytes) :
    fourDigits (a :: b :: c :: d :: rest) = .ok (n, rest) := by
  obtain ⟨w, x, y, z, ha, hb, hc, hd, rfl⟩ := h
  simp [fourDigits, ha, hb, hc, hd]

theorem plain_byte {c : Char} (hc : 0x20 ≤ c.toNat) (hq : c ≠ '"') (hb : c ≠ '\\') {b : UInt8}
    (h : b ∈ String.utf8EncodeChar c) : b ≠ 0x22 ∧ b ≠ 0x5c ∧ ¬b < 0x20 := by
  have hlarge : 0x20 ≤ b.toNat ∧ b.toNat ≠ 0x22 ∧ b.toNat ≠ 0x5c := by
    by_cases ha : c.toNat < 0x80
    · rw [Bytes.utf8_of_lt ha, List.mem_singleton] at h
      have hb' : b.toNat = c.toNat := by
        rw [h, UInt8.toNat_ofNat']
        omega
      have hq' : c.toNat ≠ 0x22 := fun h => hq (Char.toNat_inj.1 h)
      have hb'' : c.toNat ≠ 0x5c := fun h => hb (Char.toNat_inj.1 h)
      omega
    · have := Bytes.le_of_mem_utf8 (by omega) h
      omega
  refine ⟨?_, ?_, ?_⟩
  · rintro rfl
    simp at hlarge
  · rintro rfl
    simp at hlarge
  · rw [UInt8.lt_iff_toNat_lt]
    simpa using hlarge.1

theorem skipText_plain {s : Bytes} (hs : ∀ b ∈ s, b ≠ 0x22 ∧ b ≠ 0x5c ∧ ¬b < 0x20) (rest : Bytes) :
    skipText (s ++ rest) = skipText rest := by
  induction s with
  | nil => rfl
  | cons b s ih =>
    obtain ⟨hq, he, hc⟩ := hs b List.mem_cons_self
    rw [List.cons_append, skipText, if_neg hq, if_neg he, if_neg hc]
    exact ih fun c hc => hs c (List.mem_cons_of_mem b hc)

theorem skipText_escape {s r : Bytes} (h : skipEscape s = .ok r) :
    skipText (0x5c :: s) = skipText r := by
  rw [skipText, if_neg (by decide), if_pos rfl]
  split
  · next f hf => simp [h] at hf
  · next r' hr =>
    rw [h] at hr
    cases hr
    rfl

theorem skipEscape_numbered {n : Nat} {a b c d : UInt8} (h : IsHex n a b c d) (rest : Bytes) :
    skipEscape (0x75 :: a :: b :: c :: d :: rest) = .ok rest := by
  simp [skipEscape, shortEscape?_u, fourDigits_isHex h, Except.map]

theorem skipText_spells {cs : List Char} {s : Bytes} (h : Spells cs s) (rest : Bytes) :
    skipText (s ++ 0x22 :: rest) = .ok rest := by
  induction h with
  | nil => rw [List.nil_append, skipText, if_pos rfl]
  | plain hc hq hb _ ih =>
    rw [List.append_assoc, skipText_plain (fun b h => plain_byte hc hq hb h), ih]
  | @short mark value cs s hm _ ih =>
    have hs : skipEscape (mark :: (s ++ 0x22 :: rest)) = .ok (s ++ 0x22 :: rest) := by
      simp [skipEscape, hm]
    rw [List.cons_append, List.cons_append, skipText_escape hs, ih]
  | numbered hc _ ih =>
    simp only [List.cons_append]
    rw [skipText_escape (skipEscape_numbered hc _), ih]
  | pair _ hd he _ ih =>
    simp only [List.cons_append]
    rw [skipText_escape (skipEscape_numbered hd _), skipText_escape (skipEscape_numbered he _), ih]

theorem Ends.not_isDigit {rest : Bytes} (h : Ends rest) : ∀ b ∈ rest.head?, isDigit b = false := by
  intro b hb
  rcases h b hb with h | rfl | rfl | rfl
  · cases hd : isDigit b with
    | false => rfl
    | true => simp [not_isSpace_of_isDigit hd] at h
  all_goals decide

theorem getD_head_isDigit {s : Bytes} (h : ∀ b ∈ s.head?, isDigit b = false) :
    (s.head?.map isDigit).getD false = false := by
  cases hs : s.head? with
  | none => rfl
  | some b => exact h b hs

theorem takeWhile_digits {ds : Bytes} (hd : ∀ b ∈ ds, isDigit b = true) {rest : Bytes}
    (hr : ∀ b ∈ rest.head?, isDigit b = false) : (ds ++ rest).takeWhile isDigit = ds := by
  rw [List.takeWhile_append_of_pos hd]
  cases rest with
  | nil => simp
  | cons b r => simp [hr b rfl]

theorem dropWhile_digits {ds : Bytes} (hd : ∀ b ∈ ds, isDigit b = true) {rest : Bytes}
    (hr : ∀ b ∈ rest.head?, isDigit b = false) : (ds ++ rest).dropWhile isDigit = rest := by
  rw [List.dropWhile_append_of_pos hd]
  cases rest with
  | nil => rfl
  | cons b r => simp [hr b rfl]

/-- Nothing that could belong to a number goes on here. -/
def StopsNumber (rest : Bytes) : Prop :=
  ∀ b ∈ rest.head?, isDigit b = false ∧ b ≠ 0x2e ∧ b ≠ 0x65 ∧ b ≠ 0x45

theorem StopsNumber.not_isDigit {rest : Bytes} (h : StopsNumber rest) :
    ∀ b ∈ rest.head?, isDigit b = false :=
  fun b hb => (h b hb).1

theorem Ends.stopsNumber {rest : Bytes} (h : Ends rest) : StopsNumber rest := by
  intro b hb
  refine ⟨h.not_isDigit b hb, ?_⟩
  rcases h b hb with h | rfl | rfl | rfl
  · refine ⟨?_, ?_, ?_⟩ <;> rintro rfl <;> exact absurd h (by decide)
  all_goals decide

theorem skipExponent_exponent (e : Exponent) {rest : Bytes} (h : Ends rest) :
    skipExponent ((match e.sign with | some true => [0x2d] | some false => [0x2b] | none => [])
      ++ (e.digits.bytes ++ rest)) = .ok rest := by
  obtain ⟨d, ds, hds, hd, hall⟩ := e.digits.exists_cons
  rw [hds]
  have hrest : (ds ++ rest).dropWhile isDigit = rest := dropWhile_digits hall h.not_isDigit
  have hplus : d ≠ 0x2b := ne_of_isDigit hd (by decide)
  have hminus : d ≠ 0x2d := ne_of_isDigit hd (by decide)
  cases e.sign with
  | none => simp [skipExponent, hplus, hminus, hd, hrest]
  | some negative => cases negative <;> simp [skipExponent, hd, hrest]

theorem skipAfterFraction_stops {rest : Bytes} (h : StopsNumber rest) :
    skipAfterFraction rest = .ok rest := by
  unfold skipAfterFraction
  split
  · exact absurd rfl (h _ rfl).2.2.1
  · exact absurd rfl (h _ rfl).2.2.2
  · rfl

def Numeral.power (n : Numeral) : Bytes := match n.exponent with | some e => e.bytes | none => []

theorem skipAfterFraction_power (n : Numeral) {rest : Bytes} (h : Ends rest) :
    skipAfterFraction (n.power ++ rest) = .ok rest := by
  unfold Numeral.power
  cases n.exponent with
  | none => exact skipAfterFraction_stops h.stopsNumber
  | some e =>
    have hskip := skipExponent_exponent e h
    rw [← List.append_assoc] at hskip
    dsimp only [Exponent.bytes]
    split
    · exact hskip
    · exact hskip

theorem Numeral.power_head (n : Numeral) {rest : Bytes} (h : Ends rest) :
    ∀ b ∈ (n.power ++ rest).head?, isDigit b = false ∧ b ≠ 0x2e := by
  unfold Numeral.power
  cases n.exponent with
  | none => exact fun b hb => ⟨h.not_isDigit b hb, (h.stopsNumber b hb).2.1⟩
  | some e =>
    intro b hb
    obtain rfl : (if e.upper = true then 0x45 else 0x65) = b := by simpa [Exponent.bytes] using hb
    split <;> decide

theorem Numeral.tail_eq (n : Numeral) :
    n.tail = (match n.fraction with | some d => 0x2e :: d.bytes | none => []) ++ n.power := rfl

theorem skipAfterDigits_tail (n : Numeral) {rest : Bytes} (h : Ends rest) :
    skipAfterDigits (n.tail ++ rest) = .ok rest := by
  have hskip := skipAfterFraction_power n h
  have hhead := n.power_head h
  have hdigits : ∀ b ∈ (n.power ++ rest).head?, isDigit b = false := fun b hb => (hhead b hb).1
  rw [n.tail_eq]
  cases n.fraction with
  | none =>
    rw [List.nil_append]
    unfold skipAfterDigits
    split
    · next r heq => exact absurd rfl (hhead 0x2e (by simp [heq])).2
    · exact hskip
  | some d =>
    have hfraction : skipFraction (d.bytes ++ (n.power ++ rest)) = .ok rest := by
      rw [skipFraction, takeWhile_digits d.all_digits hdigits,
        dropWhile_digits d.all_digits hdigits, if_neg (by simpa using d.ne_nil)]
      exact hskip
    simpa [skipAfterDigits] using hfraction

theorem Numeral.tail_head (n : Numeral) {rest : Bytes} (h : Ends rest) :
    ∀ b ∈ (n.tail ++ rest).head?, isDigit b = false := by
  rw [n.tail_eq]
  cases n.fraction with
  | none => exact fun b hb => (n.power_head h b hb).1
  | some d =>
    intro b hb
    obtain rfl : 0x2e = b := by simpa using hb
    decide

theorem skipNumber_magnitude (n : Numeral) {rest : Bytes} (h : Ends rest) :
    skipNumber (n.magnitude ++ rest) = .ok rest := by
  obtain ⟨d, ds, hds, hd, hall⟩ := n.whole.exists_cons
  have hzero := n.no_leading_zero
  have hskip := skipAfterDigits_tail n h
  rw [hds] at hzero
  rw [Numeral.magnitude, hds, List.append_assoc, List.cons_append]
  unfold skipNumber
  split
  · next heq => simp at heq
  · next r heq =>
    obtain ⟨rfl, rfl⟩ := List.cons.inj heq
    obtain rfl : ds = [] := by simpa using hzero rfl
    rw [List.nil_append, getD_head_isDigit (n.tail_head h)]
    exact hskip
  · next b r _ heq =>
    obtain ⟨rfl, rfl⟩ := List.cons.inj heq
    rw [if_pos hd, dropWhile_digits hall (n.tail_head h)]
    exact hskip

theorem skipScalar_numeral (n : Numeral) {rest : Bytes} (h : Ends rest) :
    skipScalar (n.bytes ++ rest) = .ok rest := by
  have hskip := skipNumber_magnitude n h
  unfold Numeral.bytes
  split
  · simpa [skipScalar, isDigit] using hskip
  · obtain ⟨d, ds, hds, hd, _⟩ := n.whole.exists_cons
    have hne : d ≠ 0x6e ∧ d ≠ 0x74 ∧ d ≠ 0x66 ∧ d ≠ 0x2d := by
      refine ⟨?_, ?_, ?_, ?_⟩ <;> exact ne_of_isDigit hd (by decide)
    rw [Numeral.magnitude, hds] at hskip ⊢
    simpa [skipScalar, hne, hd] using hskip

section Steps

variable {stack outer : List Bracket} {s r r' r'' : Bytes} {b : UInt8}

theorem skipWanted_scalar (hs : skipSpace s = b :: r) (hl : b ≠ 0x5b) (ho : b ≠ 0x7b)
    (h : skipScalar (b :: r) = .ok r') : skipWanted .value stack s = skipWanted .close stack r' := by
  conv => lhs; rw [skipWanted]
  split
  · next heq => simp_all
  · next heq => simp_all
  · split
    · next hf => simp [hs, h] at hf
    · next hr =>
      rw [hs, h] at hr
      cases hr
      rfl

theorem skipWanted_emptyList (hs : skipSpace s = 0x5b :: r) (hr : skipSpace r = 0x5d :: r') :
    skipWanted .value stack s = skipWanted .close stack r' := by
  conv => lhs; rw [skipWanted]
  split
  · next heq =>
    obtain ⟨_, rfl⟩ := List.cons.inj (hs.symm.trans heq)
    split <;> simp_all
  all_goals simp_all

theorem skipWanted_list (stack : List Bracket) (hs : skipSpace s = 0x5b :: r)
    (hr : skipSpace r = b :: r')
    (hb : b ≠ 0x5d) : skipWanted .value stack s = skipWanted .value (.list :: stack) r := by
  conv => lhs; rw [skipWanted]
  split
  · next heq =>
    obtain ⟨_, rfl⟩ := List.cons.inj (hs.symm.trans heq)
    split <;> simp_all
  all_goals simp_all

theorem skipWanted_emptyObject (hs : skipSpace s = 0x7b :: r) (hr : skipSpace r = 0x7d :: r') :
    skipWanted .value stack s = skipWanted .close stack r' := by
  conv => lhs; rw [skipWanted]
  split
  · simp_all
  · next heq =>
    obtain ⟨_, rfl⟩ := List.cons.inj (hs.symm.trans heq)
    split <;> simp_all
  · simp_all

theorem skipWanted_object (stack : List Bracket) (hs : skipSpace s = 0x7b :: r)
    (hr : skipSpace r = b :: r')
    (hb : b ≠ 0x7d) : skipWanted .value stack s = skipWanted .member (.object :: stack) r := by
  conv => lhs; rw [skipWanted]
  split
  · simp_all
  · next heq =>
    obtain ⟨_, rfl⟩ := List.cons.inj (hs.symm.trans heq)
    split <;> simp_all
  · simp_all

theorem skipWanted_member (stack : List Bracket) (hs : skipSpace s = 0x22 :: r)
    (ht : skipText r = .ok r') (hc : skipSpace r' = 0x3a :: r'') :
    skipWanted .member stack s = skipWanted .value stack r'' := by
  conv => lhs; rw [skipWanted]
  split
  · simp_all
  · next heq =>
    obtain ⟨_, rfl⟩ := List.cons.inj (hs.symm.trans heq)
    split
    · simp_all
    · next heq =>
      rw [ht] at heq
      cases heq
      split <;> simp_all
  · simp_all

theorem skipWanted_listComma (outer : List Bracket) (hs : skipSpace s = 0x2c :: r) :
    skipWanted .close (.list :: outer) s = skipWanted .value (.list :: outer) r := by
  conv => lhs; rw [skipWanted]
  split <;> simp_all

theorem skipWanted_listEnd (outer : List Bracket) (hs : skipSpace s = 0x5d :: r) :
    skipWanted .close (.list :: outer) s = skipWanted .close outer r := by
  conv => lhs; rw [skipWanted]
  split <;> simp_all

theorem skipWanted_objectComma (outer : List Bracket) (hs : skipSpace s = 0x2c :: r) :
    skipWanted .close (.object :: outer) s = skipWanted .member (.object :: outer) r := by
  conv => lhs; rw [skipWanted]
  split <;> simp_all

theorem skipWanted_objectEnd (outer : List Bracket) (hs : skipSpace s = 0x7d :: r) :
    skipWanted .close (.object :: outer) s = skipWanted .close outer r := by
  conv => lhs; rw [skipWanted]
  split <;> simp_all

end Steps

/-- What is wanted where a part starts, with the brackets that are open inside a given stack. -/
def Part.start (stack : List Bracket) : Part → Want × List Bracket
  | .value _ => (.value, stack)
  | .elements _ _ => (.value, .list :: stack)
  | .member _ => (.member, .object :: stack)
  | .members _ _ => (.member, .object :: stack)

theorem skipSpace_close {w : Bytes} (hw : Blank w) {b : UInt8} (hb : isSpace b = false)
    (rest : Bytes) : skipSpace (w ++ b :: rest) = b :: rest := by
  rw [skipSpace_append hw, skipSpace_cons hb]

/-- A part is passed over, and then its end is wanted. -/
theorem skipWanted_writes {p : Part} {s : Bytes} (h : Writes p s) (stack : List Bracket)
    {rest : Bytes} (hrest : Ends rest) :
    skipWanted (p.start stack).1 (p.start stack).2 (s ++ rest)
      = skipWanted .close (p.start stack).2 rest := by
  induction h generalizing stack rest with
  | null hw =>
    refine skipWanted_scalar (by simpa using skipSpace_lead hw (b := 0x6e) (by decide) _) (by decide)
      (by decide) ?_
    simpa [skipScalar] using word_append [0x75, 0x6c, 0x6c] rest
  | yes hw =>
    refine skipWanted_scalar (by simpa using skipSpace_lead hw (b := 0x74) (by decide) _) (by decide)
      (by decide) ?_
    simpa [skipScalar] using word_append [0x72, 0x75, 0x65] rest
  | no hw =>
    refine skipWanted_scalar (by simpa using skipSpace_lead hw (b := 0x66) (by decide) _) (by decide)
      (by decide) ?_
    simpa [skipScalar] using word_append [0x61, 0x6c, 0x73, 0x65] rest
  | number hw n =>
    have hskip := skipScalar_numeral n hrest
    obtain ⟨b, r, hb, hlead⟩ := n.bytes_eq_cons
    have hne : b ≠ 0x5b ∧ b ≠ 0x7b ∧ IsLead b := by
      rcases hlead with rfl | hd
      · decide
      · exact ⟨ne_of_isDigit hd (by decide), ne_of_isDigit hd (by decide), by simp [IsLead, hd]⟩
    rw [hb] at hskip ⊢
    exact skipWanted_scalar (by simpa using skipSpace_lead hw hne.2.2 (r ++ rest)) hne.1 hne.2.1 hskip
  | @text w t s hw h =>
    have hskip := skipText_spells h rest
    refine skipWanted_scalar (skipSpace_quoted hw (by decide) s 0x22 rest) (by decide) (by decide) ?_
    simpa [skipScalar, isDigit] using hskip
  | @emptyList w w' hw hw' =>
    exact skipWanted_emptyList (skipSpace_quoted hw (by decide) w' 0x5d rest)
      (skipSpace_close hw' (by decide) rest)
  | @list w w' v vs s hw h hw' ih =>
    obtain ⟨b, r, hb, hlead⟩ := h.exists_lead_elements (w' ++ 0x5d :: rest)
    have hopen := skipSpace_bracketed hw (b := 0x5b) (by decide) s w' 0x5d rest
    have hstep := skipWanted_list stack hopen hb (hlead.ne (by decide))
    have hinner := ih stack (Ends.blank_append hw' (ends_bracket rest))
    have hclose := skipWanted_listEnd stack (skipSpace_close hw' (b := 0x5d) (by decide) rest)
    exact hstep.trans (hinner.trans hclose)
  | @emptyObject w w' hw hw' =>
    exact skipWanted_emptyObject (skipSpace_quoted hw (by decide) w' 0x7d rest)
      (skipSpace_close hw' (by decide) rest)
  | @object w w' m ms s hw h hw' ih =>
    obtain ⟨r, hr⟩ := h.exists_quote_members (w' ++ 0x7d :: rest)
    have hopen := skipSpace_bracketed hw (b := 0x7b) (by decide) s w' 0x7d rest
    have hstep := skipWanted_object stack hopen hr (by decide)
    have hinner := ih stack (Ends.blank_append hw' (ends_brace rest))
    have hclose := skipWanted_objectEnd stack
      (skipSpace_close hw' (b := 0x7d) (by decide) rest)
    exact hstep.trans (hinner.trans hclose)
  | lastElement h ih => exact ih (.list :: stack) hrest
  | @element v v' vs s s' w h hw hs ih ih' =>
    have hfirst := ih (.list :: stack) (Ends.blank_append hw (ends_comma (s' ++ rest)))
    have hcomma := skipWanted_listComma stack
      (skipSpace_close hw (b := 0x2c) (by decide) (s' ++ rest))
    have hothers := ih' stack hrest
    simpa [Part.start] using hfirst.trans (hcomma.trans hothers)
  | @pair w w' name v n s hw hn hw' h ih =>
    have hquote := skipSpace_lead hw (b := 0x22) (by decide) (n ++ 0x22 :: (w' ++ 0x3a :: (s ++ rest)))
    have hname := skipText_spells hn (w' ++ 0x3a :: (s ++ rest))
    have hcolon := skipSpace_close hw' (b := 0x3a) (by decide) (s ++ rest)
    have hstep := skipWanted_member (.object :: stack) hquote hname hcolon
    simpa [Part.start] using hstep.trans (ih (.object :: stack) hrest)
  | lastMember h ih => exact ih stack hrest
  | @moreMembers m m' ms s s' w h hw hs ih ih' =>
    have hfirst := ih stack (Ends.blank_append hw (ends_comma (s' ++ rest)))
    have hcomma := skipWanted_objectComma stack
      (skipSpace_close hw (b := 0x2c) (by decide) (s' ++ rest))
    have hothers := ih' stack hrest
    simpa [Part.start] using hfirst.trans (hcomma.trans hothers)

/-- A value of any kind is passed over. -/
theorem skipValue_writes {v : Tree} {s : Bytes} (h : Writes (.value v) s) {rest : Bytes}
    (hrest : Ends rest) : skipValue (s ++ rest) = .ok rest := by
  have hend : skipWanted .close [] rest = .ok rest := by rw [skipWanted]
  exact (skipWanted_writes h [] hrest).trans hend

theorem ignored_writes {v : Tree} {s : Bytes} (h : Writes (.value v) s) {rest : Bytes}
    (hrest : Ends rest) : ignored (s ++ rest) = .ok ((), rest) := by
  rw [ignored, skipValue_writes h hrest]
  rfl

end Json
end TenantGate
