import TenantGate.Proofs.JsonSkipping
import TenantGate.Proofs.Results
/-!
# What readers see of a document

A reader of a type takes what a document writes, if the tree is of its type, and leaves the rest.
-/

namespace TenantGate
namespace Json

theorem utf8_of_shortEscape? {mark value : UInt8} (h : shortEscape? mark = some value) :
    String.utf8EncodeChar (Char.ofNat value.toNat) = [value] := by
  unfold shortEscape? at h
  split at h
  · next hm =>
    obtain rfl := Option.some.inj h
    rcases hm with rfl | rfl | rfl <;> decide
  · repeat' split at h
    all_goals first
      | (obtain rfl := Option.some.inj h; decide)
      | simp at h

theorem readEscape_short {mark value : UInt8} (h : shortEscape? mark = some value) (rest : Bytes) :
    readEscape (mark :: rest) = .ok (String.utf8EncodeChar (Char.ofNat value.toNat), rest) := by
  simp [readEscape, h, utf8_of_shortEscape? h]

theorem not_surrogate (c : Char) : isTrailing c.toNat = false ∧ isLeading c.toNat = false := by
  have hvalid : c.toNat < 0xd800 ∨ 0xdfff < c.toNat ∧ c.toNat < 0x110000 := c.valid
  simp only [isTrailing, isLeading, Bool.and_eq_false_iff, decide_eq_false_iff_not]
  omega

theorem readEscape_numbered {c : Char} {d₁ d₂ d₃ d₄ : UInt8} (h : IsHex c.toNat d₁ d₂ d₃ d₄)
    (rest : Bytes) :
    readEscape (0x75 :: d₁ :: d₂ :: d₃ :: d₄ :: rest) = .ok (String.utf8EncodeChar c, rest) := by
  simp [readEscape, shortEscape?_u, numberedChar, fourDigits_isHex h, bind, Except.bind,
    not_surrogate]

theorem readEscape_pair {c : Char} {d₁ d₂ d₃ d₄ e₁ e₂ e₃ e₄ : UInt8} (hc : 0x10000 ≤ c.toNat)
    (hd : IsHex (0xd800 + (c.toNat - 0x10000) / 0x400) d₁ d₂ d₃ d₄)
    (he : IsHex (0xdc00 + (c.toNat - 0x10000) % 0x400) e₁ e₂ e₃ e₄) (rest : Bytes) :
    readEscape (0x75 :: d₁ :: d₂ :: d₃ :: d₄ :: 0x5c :: 0x75 :: e₁ :: e₂ :: e₃ :: e₄ :: rest)
      = .ok (String.utf8EncodeChar c, rest) := by
  have hlt : c.toNat < 0x110000 := by
    have hvalid : c.toNat < 0xd800 ∨ 0xdfff < c.toNat ∧ c.toNat < 0x110000 := c.valid
    omega
  have hleading : isTrailing (0xd800 + (c.toNat - 0x10000) / 0x400) = false ∧
      isLeading (0xd800 + (c.toNat - 0x10000) / 0x400) = true := by
    simp only [isTrailing, isLeading, Bool.and_eq_false_iff, decide_eq_false_iff_not,
      Bool.and_eq_true, decide_eq_true_eq]
    omega
  have htrailing : isTrailing (0xdc00 + (c.toNat - 0x10000) % 0x400) = true := by
    simp only [isTrailing, Bool.and_eq_true, decide_eq_true_eq]
    omega
  have hchar : 0x10000 + (c.toNat - 0x10000) / 0x400 * 0x400 + (c.toNat - 0x10000) % 0x400
      = c.toNat := by
    omega
  simp [readEscape, shortEscape?_u, numberedChar, fourDigits_isHex hd, fourDigits_isHex he, bind,
    Except.bind, escapeMark, hleading, htrailing, hchar]

theorem textBytes_plain {s : Bytes} (hs : ∀ b ∈ s, b ≠ 0x22 ∧ b ≠ 0x5c ∧ ¬b < 0x20)
    (acc rest : Bytes) : textBytes acc (s ++ rest) = textBytes (s.reverse ++ acc) rest := by
  induction s generalizing acc with
  | nil => rfl
  | cons b s ih =>
    obtain ⟨hq, he, hc⟩ := hs b List.mem_cons_self
    rw [List.cons_append, textBytes, if_neg hq, if_neg he, if_neg hc,
      ih (fun c hc => hs c (List.mem_cons_of_mem b hc))]
    simp

theorem textBytes_escape {s e r : Bytes} (h : readEscape s = .ok (e, r)) (acc : Bytes) :
    textBytes acc (0x5c :: s) = textBytes (e.reverse ++ acc) r := by
  rw [textBytes, if_neg (by decide), if_pos rfl]
  split
  · next f hf => simp [h] at hf
  · next e' r' hr =>
    rw [h] at hr
    cases hr
    rfl

theorem textBytes_spells {cs : List Char} {s : Bytes} (h : Spells cs s) (acc rest : Bytes) :
    textBytes acc (s ++ 0x22 :: rest)
      = .ok (acc.reverse ++ cs.flatMap String.utf8EncodeChar, rest) := by
  induction h generalizing acc with
  | nil => rw [List.nil_append, textBytes, if_pos rfl, List.flatMap_nil, List.append_nil]
  | plain hc hq hb _ ih =>
    rw [List.append_assoc, textBytes_plain (fun b h => plain_byte hc hq hb h), ih]
    simp
  | short hm _ ih =>
    simp only [List.cons_append]
    rw [textBytes_escape (readEscape_short hm _), ih]
    simp
  | numbered hc _ ih =>
    simp only [List.cons_append]
    rw [textBytes_escape (readEscape_numbered hc _), ih]
    simp
  | pair hc hd he _ ih =>
    simp only [List.cons_append]
    rw [textBytes_escape (readEscape_pair hc hd he _), ih]
    simp

theorem readText_spells {t : String} {s : Bytes} (h : Spells t.toList s) (rest : Bytes) :
    readText (s ++ 0x22 :: rest) = .ok (t, rest) := by
  have hb := textBytes_spells h [] rest
  rw [List.reverse_nil, List.nil_append] at hb
  simp [readText, hb, bind, Except.bind, Bytes.text?_utf8]

theorem text_writes {t : String} {s : Bytes} (h : Writes (.value (.text t)) s) (rest : Bytes) :
    text (s ++ rest) = .ok (t, rest) := by
  cases h with
  | @text w t s hw h =>
    have hquote := skipSpace_quoted hw (b := 0x22) (by decide) s 0x22 rest
    simp only [text, hquote]
    exact readText_spells h rest

theorem optional_null {α : Type} (item : Reader α) {s : Bytes} (h : Writes (.value .null) s)
    (rest : Bytes) : optional item (s ++ rest) = .ok (none, rest) := by
  cases h with
  | @null w hw =>
    have hword : skipSpace (w ++ [0x6e, 0x75, 0x6c, 0x6c] ++ rest)
        = 0x6e :: ([0x75, 0x6c, 0x6c] ++ rest) := by
      rw [List.append_assoc]
      exact skipSpace_lead hw (by decide) _
    simp only [optional, hword, word_append]
    rfl

/-- A reader that passes over blanks first. -/
def PassesBlanks {α : Type} (item : Reader α) : Prop := ∀ s, item (skipSpace s) = item s

theorem skipSpace_idem (s : Bytes) : skipSpace (skipSpace s) = skipSpace s := by
  cases h : skipSpace s with
  | nil => rfl
  | cons b r =>
    have hb : isSpace b = false := by
      have := List.head_dropWhile_not isSpace (l := s) (by rw [skipSpace] at h; simp [h])
      simp only [skipSpace] at h
      simpa [h] using this
    exact skipSpace_cons hb r

theorem optional_of_ne_null {α : Type} {item : Reader α} (hitem : PassesBlanks item) {v : Tree}
    (hv : v ≠ .null) {s : Bytes} (h : Writes (.value v) s) (rest : Bytes) :
    optional item (s ++ rest) = (item (s ++ rest)).map fun p => (some p.1, p.2) := by
  obtain ⟨b, r, hs, hb⟩ := h.exists_lead rest
  have hne : b ≠ 0x6e := by
    rintro rfl
    exact hv hb.eq_null
  unfold optional
  split
  · next heq => simp_all
  · rw [hitem]

theorem le_foldl_digits (n : Nat) (ds : Bytes) :
    n ≤ ds.foldl (fun n b => n * 10 + digitValue b) n := by
  induction ds generalizing n with
  | nil => exact Nat.le_refl n
  | cons d ds ih =>
    have hstep : n ≤ n * 10 + digitValue d := by omega
    exact Nat.le_trans hstep (ih _)

theorem gather_digits {n : Nat} {ds : Bytes}
    (h : ds.foldl (fun n b => n * 10 + digitValue b) n ≤ maxUnsigned) :
    gather n ds = (ds.foldl (fun n b => n * 10 + digitValue b) n, 0) := by
  induction ds generalizing n with
  | nil => rfl
  | cons d ds ih =>
    have hstep : n * 10 + digitValue d ≤ maxUnsigned := Nat.le_trans (le_foldl_digits _ ds) h
    rw [gather, if_pos hstep]
    exact ih h

theorem gather_value {n : Nat} {ds : Bytes} (h : (gather n ds).2 = 0) :
    (gather n ds).1 = ds.foldl (fun n b => n * 10 + digitValue b) n := by
  induction ds generalizing n with
  | nil => rfl
  | cons d ds ih =>
    rw [gather] at h ⊢
    split at h
    · next hfits =>
      rw [if_pos hfits]
      exact ih h
    · simp at h

theorem gather_zero (d : UInt8) (ds : Bytes) : gather 0 (d :: ds) = gather (digitValue d) ds := by
  have hfits : 0 * 10 + digitValue d ≤ maxUnsigned := by
    have hlt := d.toNat_lt
    simp only [digitValue, maxUnsigned]
    omega
  rw [gather, if_pos hfits, Nat.zero_mul, Nat.zero_add]

theorem readNumber_whole (n : Numeral) (positive : Bool) {rest : Bytes}
    (h : ∀ b ∈ rest.head?, isDigit b = false) :
    readNumber positive (n.whole.bytes ++ rest) =
      readAfterDigits positive (gather 0 n.whole.bytes).1 (gather 0 n.whole.bytes).2 rest := by
  obtain ⟨d, ds, hds, hd, hrest⟩ := n.whole.exists_cons
  have hzero := n.no_leading_zero
  rw [hds] at hzero ⊢
  rw [List.cons_append, gather_zero]
  unfold readNumber
  split
  · next heq => simp at heq
  · next r heq =>
    obtain ⟨rfl, rfl⟩ := List.cons.inj heq
    obtain rfl : ds = [] := by simpa using hzero rfl
    rw [List.nil_append, getD_head_isDigit h]
    rfl
  · next b r _ heq =>
    obtain ⟨rfl, rfl⟩ := List.cons.inj heq
    rw [if_pos hd, takeWhile_digits hrest h, dropWhile_digits hrest h]

theorem readAfterDigits_integer {rest : Bytes} (h : StopsNumber rest) (positive : Bool) (n : Nat) :
    readAfterDigits positive n 0 rest =
      if positive then .ok (.unsigned n, rest)
      else if n = 0 ∨ 0x8000000000000000 < n then
        .ok (.double (signed false n.toUInt64.toFloat), rest)
      else .ok (.negative n, rest) := by
  unfold readAfterDigits
  split
  · exact absurd rfl (h _ rfl).2.1
  · exact absurd rfl (h _ rfl).2.2.1
  · exact absurd rfl (h _ rfl).2.2.2
  · rfl

theorem passesBlanks_number {α : Type} (wanted : String) (check : Number → Except Cause α) :
    PassesBlanks (number wanted check) := by
  intro s
  simp only [number, skipSpace_idem]

theorem passesBlanks_int64 : PassesBlanks int64 := passesBlanks_number _ _

theorem passesBlanks_text : PassesBlanks text := by
  intro s
  simp only [text, skipSpace_idem]

theorem number_of_minus {α : Type} {wanted : String} {check : Number → Except Cause α} {s r r' : Bytes}
    {n : Number} {x : α} (hs : skipSpace s = 0x2d :: r) (hn : readNumber false r = .ok (n, r'))
    (hx : check n = .ok x) : number wanted check s = .ok (x, r') := by
  simp only [number, hs, hn, bind, Except.bind, hx]

theorem number_of_digit {α : Type} {wanted : String} {check : Number → Except Cause α} {s r r' : Bytes}
    {b : UInt8} {n : Number} {x : α} (hs : skipSpace s = b :: r) (hb : isDigit b = true)
    (hn : readNumber true (b :: r) = .ok (n, r')) (hx : check n = .ok x) :
    number wanted check s = .ok (x, r') := by
  unfold number
  dsimp only
  split
  · next heq =>
    rw [hs] at heq
    obtain ⟨rfl, _⟩ := List.cons.inj heq
    exact absurd hb (by decide)
  · next heq =>
    rw [hs] at heq
    obtain ⟨rfl, rfl⟩ := List.cons.inj heq
    simp only [hb, if_true, hn, bind, Except.bind, hx]
  · next heq => simp [hs] at heq

theorem Numeral.int?_eq_some {n : Numeral} {i : Int} (h : n.int? = some i) :
    n.magnitude = n.whole.bytes ∧
      (n.negative = true ∧ ¬(n.whole.value = 0 ∨ 0x8000000000000000 < n.whole.value) ∧
          i = -n.whole.value ∨
        n.negative = false ∧ n.whole.value < 0x8000000000000000 ∧ i = n.whole.value) := by
  unfold int? at h
  split at h
  · cases h
  · next hplain =>
    refine ⟨by simp_all [magnitude, tail], ?_⟩
    split at h
    · next hneg =>
      split at h
      · cases h
      · next hsmall => exact .inl ⟨hneg, hsmall, (Option.some.inj h).symm⟩
    · next hneg =>
      split at h
      · next hsmall => exact .inr ⟨by simpa using hneg, hsmall, (Option.some.inj h).symm⟩
      · cases h

theorem readNumber_integer (n : Numeral) (hn : n.whole.value ≤ maxUnsigned) (positive : Bool)
    {rest : Bytes} (h : Ends rest) : readNumber positive (n.whole.bytes ++ rest) =
      if positive then .ok (.unsigned n.whole.value, rest)
      else if n.whole.value = 0 ∨ 0x8000000000000000 < n.whole.value then
        .ok (.double (signed false n.whole.value.toUInt64.toFloat), rest)
      else .ok (.negative n.whole.value, rest) := by
  have hgather : gather 0 n.whole.bytes = (n.whole.value, 0) := gather_digits hn
  rw [readNumber_whole n positive h.not_isDigit, hgather]
  exact readAfterDigits_integer h.stopsNumber positive n.whole.value

theorem int64_writes {n : Numeral} {i : Int} (hi : n.int? = some i) {s : Bytes}
    (h : Writes (.value (.number n)) s) {rest : Bytes} (hrest : Ends rest) :
    int64 (s ++ rest) = .ok (i, rest) := by
  cases h with
  | @number w hw n =>
    obtain ⟨hmagnitude, ⟨hneg, hsmall, rfl⟩ | ⟨hneg, hsmall, rfl⟩⟩ := Numeral.int?_eq_some hi
    · have hstart : skipSpace (w ++ n.bytes ++ rest) = 0x2d :: (n.whole.bytes ++ rest) := by
        rw [List.append_assoc, Numeral.bytes, hneg, if_pos rfl, hmagnitude]
        exact skipSpace_lead hw (by decide) _
      have hnum := readNumber_integer n (by simp only [maxUnsigned]; omega) false hrest
      rw [if_neg Bool.false_ne_true, if_neg hsmall] at hnum
      exact number_of_minus hstart hnum rfl
    · obtain ⟨d, ds, hds, hd, _⟩ := n.whole.exists_cons
      have hstart : skipSpace (w ++ n.bytes ++ rest) = d :: (ds ++ rest) := by
        rw [List.append_assoc, Numeral.bytes, hneg, if_neg Bool.false_ne_true, hmagnitude, hds]
        exact skipSpace_lead hw (by simp [IsLead, hd]) _
      have hnum := readNumber_integer n (by simp only [maxUnsigned]; omega) true hrest
      rw [if_pos rfl, hds] at hnum
      exact number_of_digit hstart hd hnum (if_pos (by simpa using hsmall))

/-- A number with a fraction, an exponent or more digits than are kept. -/
def Number.IsDouble : Number → Prop
  | .double _ => True
  | _ => False

/-- A number that was put together from digits and a power of ten. -/
def Number.IsScaled (positive : Bool) : Number → Prop
  | .double x => ∃ y, x = signed positive y ∧ (y = 0 ∨ ∃ n e, scaled? n e = some y)
  | _ => False

theorem Number.IsScaled.isDouble {positive : Bool} {x : Number} (h : x.IsScaled positive) :
    x.IsDouble := by
  cases x with
  | double => trivial
  | unsigned | negative => exact h

theorem finishDouble_isScaled {positive : Bool} {n : Nat} {e : Int} {s r : Bytes} {x : Number}
    (h : finishDouble positive n e s = .ok (x, r)) : x.IsScaled positive := by
  unfold finishDouble at h
  split at h
  · next y hy =>
    cases h
    exact ⟨y, rfl, .inr ⟨n, e, hy⟩⟩
  · simp [faultAt] at h

def exponentDigits (positive : Bool) (n : Nat) (start : Int) (up : Bool) :
    Bytes → Except Fault (Number × Bytes)
  | [] => faultAt .endInValue []
  | d :: s =>
    if isDigit d then
      match gatherExponent (digitValue d) s with
      | .ok (e, s) => finishDouble positive n (if up then start + e else start - e) s
      | .error s =>
        if n ≠ 0 ∧ up then faultAt .numberOutOfRange s
        else .ok (.double (signed positive 0), s.dropWhile isDigit)
    else faultAt .invalidNumber s

theorem readExponent_unsigned (positive : Bool) (n : Nat) (start : Int) {d : UInt8}
    (hplus : d ≠ 0x2b) (hminus : d ≠ 0x2d) (s : Bytes) :
    readExponent positive n start (d :: s) = exponentDigits positive n start true (d :: s) := by
  unfold readExponent
  split
  next up s' hsign =>
  have hs' : (true, d :: s) = (up, s') := by
    rw [← hsign]
    split
    · next heq => exact absurd (List.cons.inj heq).1 hplus
    · next heq => exact absurd (List.cons.inj heq).1 hminus
    · rfl
  cases hs'
  rfl

theorem readExponent_eq (positive : Bool) (n : Nat) (start : Int) {s : Bytes} (hs : s ≠ []) :
    ∃ up t, ∀ rest,
      readExponent positive n start (s ++ rest) = exponentDigits positive n start up (t ++ rest) := by
  cases s with
  | nil => exact absurd rfl hs
  | cons d t =>
    by_cases hplus : d = 0x2b
    · subst hplus
      exact ⟨true, t, fun _ => rfl⟩
    · by_cases hminus : d = 0x2d
      · subst hminus
        exact ⟨false, t, fun _ => rfl⟩
      · exact ⟨true, d :: t, fun rest => readExponent_unsigned positive n start hplus hminus (t ++ rest)⟩

theorem exponentDigits_isScaled {positive up : Bool} {n : Nat} {e : Int} {s r : Bytes} {x : Number}
    (h : exponentDigits positive n e up s = .ok (x, r)) : x.IsScaled positive := by
  unfold exponentDigits at h
  split at h
  · simp [faultAt] at h
  · split at h
    · split at h
      · exact finishDouble_isScaled h
      · split at h
        · simp [faultAt] at h
        · cases h
          exact ⟨0, rfl, .inl rfl⟩
    · simp [faultAt] at h

theorem readExponent_isScaled {positive : Bool} {n : Nat} {e : Int} {s r : Bytes} {x : Number}
    (h : readExponent positive n e s = .ok (x, r)) : x.IsScaled positive := by
  by_cases hs : s = []
  · subst hs
    simp [readExponent, faultAt] at h
  · obtain ⟨up, t, heq⟩ := readExponent_eq positive n e hs
    have h' := heq []
    rw [List.append_nil, h] at h'
    exact exponentDigits_isScaled h'.symm

theorem readFraction_isScaled {positive : Bool} {n surplus : Nat} {s r : Bytes} {x : Number}
    (h : readFraction positive n surplus s = .ok (x, r)) : x.IsScaled positive := by
  unfold readFraction at h
  dsimp only at h
  split at h
  · split at h <;> simp [faultAt, faultOn] at h
  · split at h
    · exact readExponent_isScaled h
    · exact readExponent_isScaled h
    · exact finishDouble_isScaled h

/-- A number that is kept as it is written, or the double next to it if that is beyond 64 bits. -/
def Number.IsKept (n : Nat) : Number → Prop
  | .unsigned k => k = n
  | .negative k => k = n ∧ n ≤ 0x8000000000000000
  | .double x => x = signed false n.toUInt64.toFloat

theorem readAfterDigits_cases {positive : Bool} {n surplus : Nat} {s r : Bytes} {x : Number}
    (h : readAfterDigits positive n surplus s = .ok (x, r)) : x.IsScaled positive ∨ x.IsKept n := by
  unfold readAfterDigits at h
  split at h
  · exact .inl (readFraction_isScaled h)
  · exact .inl (readExponent_isScaled h)
  · exact .inl (readExponent_isScaled h)
  · split at h
    · exact .inl (finishDouble_isScaled h)
    · right
      split at h
      · cases h
        rfl
      · split at h
        · cases h
          rfl
        · next hn =>
          cases h
          exact ⟨rfl, Nat.le_of_not_lt fun hlt => hn (.inr hlt)⟩

theorem gather_le {n : Nat} (hn : n ≤ maxUnsigned) (ds : Bytes) : (gather n ds).1 ≤ maxUnsigned := by
  induction ds generalizing n with
  | nil => exact hn
  | cons d ds ih =>
    rw [gather]
    split
    · next hfits => exact ih hfits
    · exact hn

theorem readNumber_cases {positive : Bool} {s r : Bytes} {x : Number}
    (h : readNumber positive s = .ok (x, r)) :
    x.IsScaled positive ∨ ∃ n, n ≤ maxUnsigned ∧ x.IsKept n := by
  unfold readNumber at h
  split at h
  · simp [faultAt] at h
  · split at h
    · simp [faultOn] at h
    · exact (readAfterDigits_cases h).imp_right fun hx => ⟨0, Nat.zero_le _, hx⟩
  · next d s _ =>
    split at h
    · refine (readAfterDigits_cases h).imp_right fun hx => ⟨_, ?_, hx⟩
      have hd := d.toNat_lt
      exact gather_le (by simp only [digitValue, maxUnsigned]; omega) _
    · simp [faultAt] at h

theorem refuse_ne_ok {α : Type} (wanted : String) (s : Bytes) (p : α × Bytes) :
    refuse wanted s ≠ .ok p := by
  unfold refuse
  cases s with
  | nil => simp [faultAt]
  | cons b r =>
    intro h
    dsimp only at h
    repeat' split at h
    all_goals first
      | (obtain ⟨_, _, h⟩ := Result.bind_eq_ok.1 h; simp [faultAt] at h)
      | simp [faultAt, faultOn] at h

theorem number_eq_ok {α : Type} {wanted : String} {check : Number → Except Cause α} {s r : Bytes}
    {x : α} (h : number wanted check s = .ok (x, r)) :
    ∃ positive t n, (positive = false ∧ skipSpace s = 0x2d :: t ∨
        positive = true ∧ skipSpace s = t ∧ ∃ d r', t = d :: r' ∧ isDigit d = true) ∧
      readNumber positive t = .ok (n, r) ∧ check n = .ok x := by
  unfold number at h
  extract_lets take at h
  have taken {positive : Bool} {t : Bytes} (ht : (readNumber positive t >>= take) = .ok (x, r)) :
      ∃ n, readNumber positive t = .ok (n, r) ∧ check n = .ok x := by
    obtain ⟨⟨n, r'⟩, hn, ht⟩ := Result.bind_eq_ok.1 ht
    dsimp only [take] at ht
    split at ht
    · next x' hx =>
      obtain ⟨rfl, rfl⟩ := Prod.mk.inj (Except.ok.inj ht)
      exact ⟨n, hn, hx⟩
    · cases ht
  split at h
  · next t hs =>
    obtain ⟨n, hn, hx⟩ := taken h
    exact ⟨false, t, n, .inl ⟨rfl, hs⟩, hn, hx⟩
  · next d r' _ hs =>
    split at h
    · next hd =>
      obtain ⟨n, hn, hx⟩ := taken h
      exact ⟨true, d :: r', n, .inr ⟨rfl, hs, d, r', rfl, hd⟩, hn, hx⟩
    · exact absurd h (refuse_ne_ok _ _ _)
  · cases h

end Json
end TenantGate
