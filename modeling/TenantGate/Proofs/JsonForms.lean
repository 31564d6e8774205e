import TenantGate.Proofs.JsonNumerals
import TenantGate.Proofs.JsonSoundness
/-!
# The form of a document

A value that is passed over need not be a tree, as its texts need not be characters.  The form of a
document tells its words, its texts as they are written, its lists and its objects.  Nothing has two
forms.
-/

namespace TenantGate
namespace Json

inductive Form
  /-- One of the three fixed words, or a numeral. -/
  | word (s : Bytes)
  /-- What stands between two quotes. -/
  | text (s : Bytes)
  | list (elements : List Form)
  | object (members : List (Bytes × Form))

def nullWord : Bytes := [0x6e, 0x75, 0x6c, 0x6c]

def IsWord (s : Bytes) : Prop :=
  s = nullWord ∨ s = [0x74, 0x72, 0x75, 0x65] ∨ s = [0x66, 0x61, 0x6c, 0x73, 0x65] ∨
    ∃ n : Numeral, s = n.bytes

/-- What may stand between two quotes.  Its bytes need not be UTF-8, and an escape of a surrogate
need not be one of a pair. -/
inductive Quoted : Bytes → Prop
  | nil : Quoted []
  | raw {b : UInt8} {s : Bytes} (hb : IsRaw b) (h : Quoted s) : Quoted (b :: s)
  | short {mark : UInt8} {s : Bytes} (hm : (shortEscape? mark).isSome = true) (h : Quoted s) :
      Quoted (0x5c :: mark :: s)
  | numbered {n : Nat} {d₁ d₂ d₃ d₄ : UInt8} {s : Bytes} (hd : IsHex n d₁ d₂ d₃ d₄)
      (h : Quoted s) : Quoted (0x5c :: 0x75 :: d₁ :: d₂ :: d₃ :: d₄ :: s)

/-- What a part of a document has the form of: a value with or without blanks in front, or all that
stands between two brackets from some place on. -/
inductive FormPart
  | bare (v : Form)
  | value (v : Form)
  | elements (first : Bool) (vs : List Form)
  | members (first : Bool) (ms : List (Bytes × Form))

inductive Shows : FormPart → Bytes → Prop
  | word {s : Bytes} (hs : IsWord s) : Shows (.bare (.word s)) s
  | text {s : Bytes} (hs : Quoted s) : Shows (.bare (.text s)) (0x22 :: (s ++ [0x22]))
  | list {vs : List Form} {s : Bytes} (h : Shows (.elements true vs) s) :
      Shows (.bare (.list vs)) (0x5b :: (s ++ [0x5d]))
  | object {ms : List (Bytes × Form)} {s : Bytes} (h : Shows (.members true ms) s) :
      Shows (.bare (.object ms)) (0x7b :: (s ++ [0x7d]))
  | blank {v : Form} {w s : Bytes} (hw : Blank w) (h : Shows (.bare v) s) :
      Shows (.value v) (w ++ s)
  | noElement {first : Bool} {w : Bytes} (hw : Blank w) : Shows (.elements first []) w
  | element {first : Bool} {v : Form} {vs : List Form} {l s s' : Bytes} (hl : Leads first l)
      (h : Shows (.value v) s) (hs : Shows (.elements false vs) s') :
      Shows (.elements first (v :: vs)) (l ++ (s ++ s'))
  | noMember {first : Bool} {w : Bytes} (hw : Blank w) : Shows (.members first []) w
  | member {first : Bool} {n : Bytes} {v : Form} {ms : List (Bytes × Form)} {l w w' s s' : Bytes}
      (hl : Leads first l) (hw : Blank w) (hn : Quoted n) (hw' : Blank w') (h : Shows (.value v) s)
      (hs : Shows (.members false ms) s') :
      Shows (.members first ((n, v) :: ms))
        (l ++ (w ++ 0x22 :: (n ++ 0x22 :: (w' ++ 0x3a :: (s ++ s')))))

theorem Shows.numeral (n : Numeral) : Shows (.bare (.word n.bytes)) n.bytes :=
  .word (.inr (.inr (.inr ⟨n, rfl⟩)))

/-- A document has the form of one value, and blanks may follow. -/
def Shown (doc : Bytes) (v : Form) : Prop := ∃ s w, doc = s ++ w ∧ Shows (.value v) s ∧ Blank w

def IsNumeric (b : UInt8) : Prop :=
  isDigit b = true ∨ b = 0x2d ∨ b = 0x2b ∨ b = 0x2e ∨ b = 0x65 ∨ b = 0x45

def EndsValue (b : UInt8) : Prop := isSpace b = true ∨ b = 0x2c ∨ b = 0x5d ∨ b = 0x7d

theorem IsNumeric.not_endsValue {b : UInt8} (h : IsNumeric b) : ¬EndsValue b := by
  rcases h with h | rfl | rfl | rfl | rfl | rfl
  · rintro (hb | rfl | rfl | rfl)
    · rw [not_isSpace_of_isDigit h] at hb
      cases hb
    all_goals exact absurd h (by decide)
  all_goals simp [EndsValue, isSpace]

theorem Exponent.isNumeric (e : Exponent) : ∀ b ∈ e.bytes, IsNumeric b := by
  intro b hb
  rcases List.mem_cons.1 hb with rfl | hb
  · cases e.upper <;> simp [IsNumeric]
  · rcases List.mem_append.1 hb with hb | hb
    · split at hb <;> simp_all [IsNumeric]
    · exact .inl (e.digits.all_digits b hb)

theorem Numeral.isNumeric (n : Numeral) : ∀ b ∈ n.bytes, IsNumeric b := by
  intro b hb
  simp only [bytes, magnitude, tail, List.mem_append] at hb
  rcases hb with hb | hb | hb | hb
  · split at hb <;> simp_all [IsNumeric]
  · exact .inl (n.whole.all_digits b hb)
  · split at hb
    · next d _ =>
      rcases List.mem_cons.1 hb with rfl | hb
      · simp [IsNumeric]
      · exact .inl (d.all_digits b hb)
    · cases hb
  · split at hb
    · next e _ => exact e.isNumeric b hb
    · cases hb

theorem IsWord.not_endsValue {s : Bytes} (h : IsWord s) : ∀ b ∈ s, ¬EndsValue b := by
  rcases h with rfl | rfl | rfl | ⟨n, rfl⟩
  case inr.inr.inr => exact fun b hb => (n.isNumeric b hb).not_endsValue
  all_goals simp [nullWord, EndsValue, isSpace]

theorem IsWord.exists_cons {s : Bytes} (h : IsWord s) :
    ∃ b r, s = b :: r ∧ IsLead b ∧ b ≠ 0x22 ∧ b ≠ 0x5b ∧ b ≠ 0x7b := by
  rcases h with rfl | rfl | rfl | ⟨n, rfl⟩
  · exact ⟨_, _, rfl, by decide⟩
  · exact ⟨_, _, rfl, by decide⟩
  · exact ⟨_, _, rfl, by decide⟩
  · obtain ⟨b, r, hb, rfl | hd⟩ := n.bytes_eq_cons
    · exact ⟨_, _, hb, by decide⟩
    · exact ⟨b, r, hb, by simp [IsLead, hd], ne_of_isDigit hd (by decide),
        ne_of_isDigit hd (by decide), ne_of_isDigit hd (by decide)⟩

theorem IsWord.append_ne {s : Bytes} (h : IsWord s) {b : UInt8}
    (hb : b = 0x22 ∨ b = 0x5b ∨ b = 0x7b) (r t : Bytes) : s ++ r ≠ b :: t := by
  obtain ⟨c, s, rfl, _, hquote, hbracket, hbrace⟩ := h.exists_cons
  intro heq
  obtain ⟨rfl, _⟩ := List.cons.inj heq
  rcases hb with hb | hb | hb
  · exact hquote hb
  · exact hbracket hb
  · exact hbrace hb

theorem word_append_inj {s s' r r' : Bytes} (hs : ∀ b ∈ s, ¬EndsValue b)
    (hs' : ∀ b ∈ s', ¬EndsValue b) (hr : Ends r) (hr' : Ends r') (h : s ++ r = s' ++ r') :
    s = s' ∧ r = r' := by
  induction s generalizing s' with
  | nil =>
    cases s' with
    | nil => exact ⟨rfl, h⟩
    | cons b s' =>
      exact absurd (hr b (by rw [← List.nil_append r, h]; rfl)) (hs' b List.mem_cons_self)
  | cons b s ih =>
    cases s' with
    | nil =>
      exact absurd (hr' b (by rw [← List.nil_append r', ← h]; rfl)) (hs b List.mem_cons_self)
    | cons c s' =>
      obtain ⟨rfl, hothers⟩ := List.cons.inj h
      obtain ⟨rfl, hrest⟩ := ih (fun c hc => hs c (List.mem_cons_of_mem _ hc))
        (fun c hc => hs' c (List.mem_cons_of_mem _ hc)) hothers
      exact ⟨rfl, hrest⟩

theorem skipText_quoted {s : Bytes} (h : Quoted s) (rest : Bytes) :
    skipText (s ++ 0x22 :: rest) = .ok rest := by
  induction h with
  | nil => rw [List.nil_append, skipText, if_pos rfl]
  | @raw b s hb _ ih =>
    obtain ⟨hquote, hbackslash, hcontrol⟩ := hb
    rw [List.cons_append, skipText, if_neg hquote, if_neg hbackslash, if_neg hcontrol, ih]
  | @short mark s hm _ ih =>
    have hs : skipEscape (mark :: (s ++ 0x22 :: rest)) = .ok (s ++ 0x22 :: rest) := by
      simp [skipEscape, hm]
    rw [List.cons_append, List.cons_append, skipText_escape hs, ih]
  | numbered hd _ ih =>
    simp only [List.cons_append]
    rw [skipText_escape (skipEscape_numbered hd _), ih]

/-- A text ends at its quote, whatever follows. -/
theorem Quoted.append_inj {s s' r r' : Bytes} (h : Quoted s) (h' : Quoted s')
    (heq : s ++ 0x22 :: r = s' ++ 0x22 :: r') : s = s' ∧ r = r' := by
  have hrest := skipText_quoted h r
  rw [heq, skipText_quoted h' r'] at hrest
  cases hrest
  exact ⟨List.append_cancel_right heq, rfl⟩

theorem quoted_raw {s t : Bytes} (hs : ∀ b ∈ s, IsRaw b) (ht : Quoted t) : Quoted (s ++ t) := by
  induction s with
  | nil => exact ht
  | cons b s ih =>
    exact .raw (hs b List.mem_cons_self) (ih fun c hc => hs c (List.mem_cons_of_mem _ hc))

theorem Spells.quoted {cs : List Char} {s : Bytes} (h : Spells cs s) : Quoted s := by
  induction h with
  | nil => exact .nil
  | plain hc hq hb _ ih => exact quoted_raw (fun b h => plain_byte hc hq hb h) ih
  | short hm _ ih => exact .short (by simp [hm]) ih
  | numbered hc _ ih => exact .numbered hc ih
  | pair _ hd he _ ih => exact .numbered hd (.numbered he ih)

theorem skipText_eq_ok {s r : Bytes} (h : skipText s = .ok r) :
    ∃ s', s = s' ++ 0x22 :: r ∧ Quoted s' := by
  fun_induction skipText s with
  | case1 => simp [faultAt] at h
  | case2 s =>
    cases h
    exact ⟨[], rfl, .nil⟩
  | case3 => cases h
  | case4 s t he _ _ ih =>
    obtain ⟨s', rfl, hs'⟩ := ih h
    cases s with
    | nil => simp [skipEscape, faultAt] at he
    | cons mark s =>
      simp only [skipEscape] at he
      split at he
      · next hm =>
        cases he
        exact ⟨0x5c :: mark :: s', rfl, .short hm hs'⟩
      · split at he
        · next hu =>
          obtain ⟨⟨n, t⟩, hfour, heq⟩ := Result.map_eq_ok.1 he
          obtain ⟨a, b, c, d, rfl, hd⟩ := fourDigits_eq_ok hfour
          cases heq
          exact ⟨0x5c :: mark :: a :: b :: c :: d :: s', rfl, hu ▸ .numbered hd hs'⟩
        · simp [faultAt] at he
  | case5 => simp [faultAt] at h
  | case6 b s hq he hc ih =>
    obtain ⟨s', rfl, hs'⟩ := ih h
    exact ⟨b :: s', rfl, .raw ⟨hq, he, hc⟩ hs'⟩

theorem Shows.exists_lead {v : Form} {s : Bytes} (h : Shows (.bare v) s) :
    ∃ b r, s = b :: r ∧ IsLead b := by
  cases h with
  | word hs =>
    obtain ⟨b, r, hb, hlead, _⟩ := hs.exists_cons
    exact ⟨b, r, hb, hlead⟩
  | text | list | object => exact ⟨_, _, rfl, by decide⟩

theorem Shows.skipSpace_value {v : Form} {w s : Bytes} (hw : Blank w) (h : Shows (.bare v) s)
    (rest : Bytes) : skipSpace (w ++ s ++ rest) = s ++ rest := by
  obtain ⟨b, r, rfl, hlead⟩ := h.exists_lead
  rw [List.append_assoc]
  exact skipSpace_lead hw hlead (r ++ rest)

theorem Leads.append_inj {first : Bool} {l l' t t' : Bytes} (h : Leads first l)
    (h' : Leads first l') (heq : l ++ t = l' ++ t') : t = t' := by
  cases first with
  | true =>
    obtain rfl : l = [] := h
    obtain rfl : l' = [] := h'
    exact heq
  | false =>
    obtain ⟨w, hw, rfl⟩ := h
    obtain ⟨w', hw', rfl⟩ := h'
    have hcomma := congrArg skipSpace heq
    simp only [List.append_assoc, List.singleton_append] at hcomma
    rw [skipSpace_close hw (by decide), skipSpace_close hw' (by decide)] at hcomma
    exact (List.cons.inj hcomma).2

theorem Leads.not_close {first : Bool} {l t w r : Bytes} {b c : UInt8} {t' : Bytes}
    (hl : Leads first l) (ht : skipSpace t = b :: t') (hw : Blank w) (hc : isSpace c = false)
    (hbc : b ≠ c) (hcomma : 0x2c ≠ c) : l ++ t ≠ w ++ c :: r := by
  intro heq
  have hskip := congrArg skipSpace heq
  rw [skipSpace_close hw hc] at hskip
  cases first with
  | true =>
    obtain rfl : l = [] := hl
    rw [List.nil_append, ht] at hskip
    exact hbc (List.cons.inj hskip).1
  | false =>
    obtain ⟨w', hw', rfl⟩ := hl
    rw [List.append_assoc, List.singleton_append, skipSpace_close hw' (by decide)] at hskip
    exact hcomma (List.cons.inj hskip).1

theorem Leads.element_ne_close {first : Bool} {v : Form} {l s t w r : Bytes} (hl : Leads first l)
    (h : Shows (.value v) s) (hw : Blank w) : l ++ (s ++ t) ≠ w ++ 0x5d :: r := by
  cases h with
  | blank hw' h =>
    obtain ⟨b, s', rfl, hlead⟩ := h.exists_lead
    have hstart := skipSpace_lead hw' hlead (s' ++ t)
    exact hl.not_close (by simpa using hstart) hw (by decide) (hlead.ne (by decide)) (by decide)

theorem Leads.name_ne_close {first : Bool} {l w' t w r : Bytes} (hl : Leads first l)
    (hw' : Blank w') (hw : Blank w) : l ++ (w' ++ 0x22 :: t) ≠ w ++ 0x7d :: r :=
  hl.not_close (skipSpace_lead hw' (by decide) t) hw (by decide) (by decide) (by decide)

theorem Leads.ends {l : Bytes} (h : Leads false l) (t : Bytes) : Ends (l ++ t) := by
  obtain ⟨w, hw, rfl⟩ := h
  rw [List.append_assoc]
  exact Ends.blank_append hw (ends_comma t)

theorem Shows.ends_elements {vs : List Form} {s : Bytes} (h : Shows (.elements false vs) s)
    (r : Bytes) : Ends (s ++ 0x5d :: r) := by
  cases h with
  | noElement hw => exact Ends.blank_append hw (ends_bracket r)
  | element hl _ _ =>
    rw [List.append_assoc]
    exact hl.ends _

theorem Shows.ends_members {ms : List (Bytes × Form)} {s : Bytes} (h : Shows (.members false ms) s)
    (r : Bytes) : Ends (s ++ 0x7d :: r) := by
  cases h with
  | noMember hw => exact Ends.blank_append hw (ends_brace r)
  | member hl _ _ _ _ _ =>
    rw [List.append_assoc]
    exact hl.ends _

/-- All that has a form of this shape here has this form, and ends where this part does. -/
def FormPart.Alone : FormPart → Bytes → Prop
  | .bare v, s => ∀ v' s' r r', Shows (.bare v') s' → Ends r → Ends r' →
      s ++ r = s' ++ r' → v = v' ∧ r = r'
  | .value v, s => ∀ v' s' r r', Shows (.value v') s' → Ends r → Ends r' →
      s ++ r = s' ++ r' → v = v' ∧ r = r'
  | .elements first vs, s => ∀ vs' s' r r', Shows (.elements first vs') s' →
      s ++ 0x5d :: r = s' ++ 0x5d :: r' → vs = vs' ∧ r = r'
  | .members first ms, s => ∀ ms' s' r r', Shows (.members first ms') s' →
      s ++ 0x7d :: r = s' ++ 0x7d :: r' → ms = ms' ∧ r = r'

theorem blank_append_inj {w w' r r' : Bytes} {c : UInt8} (hw : Blank w) (hw' : Blank w')
    (hc : isSpace c = false) (h : w ++ c :: r = w' ++ c :: r') : r = r' := by
  have hskip := congrArg skipSpace h
  rw [skipSpace_close hw hc, skipSpace_close hw' hc] at hskip
  exact (List.cons.inj hskip).2

theorem Shows.alone {p : FormPart} {s : Bytes} (h : Shows p s) : p.Alone s := by
  induction h with
  | word hs =>
    intro v' s' r r' h' hr hr' heq
    cases h' with
    | word hs' =>
      obtain ⟨rfl, hrest⟩ := word_append_inj hs.not_endsValue hs'.not_endsValue hr hr' heq
      exact ⟨rfl, hrest⟩
    | text => exact absurd heq (hs.append_ne (by decide) _ _)
    | list => exact absurd heq (hs.append_ne (by decide) _ _)
    | object => exact absurd heq (hs.append_ne (by decide) _ _)
  | text hs =>
    intro v' s' r r' h' _ _ heq
    cases h' with
    | word hs' => exact absurd heq.symm (hs'.append_ne (by decide) _ _)
    | text hs' =>
      obtain ⟨rfl, hrest⟩ := hs.append_inj hs' (by simpa using heq)
      exact ⟨rfl, hrest⟩
    | list | object => simp at heq
  | list _ ih =>
    intro v' s' r r' h' _ _ heq
    cases h' with
    | word hs' => exact absurd heq.symm (hs'.append_ne (by decide) _ _)
    | list h' =>
      obtain ⟨rfl, hrest⟩ := ih _ _ r r' h' (by simpa using heq)
      exact ⟨rfl, hrest⟩
    | text | object => simp at heq
  | object _ ih =>
    intro v' s' r r' h' _ _ heq
    cases h' with
    | word hs' => exact absurd heq.symm (hs'.append_ne (by decide) _ _)
    | object h' =>
      obtain ⟨rfl, hrest⟩ := ih _ _ r r' h' (by simpa using heq)
      exact ⟨rfl, hrest⟩
    | text | list => simp at heq
  | blank hw h ih =>
    intro v' s' r r' h' hr hr' heq
    cases h' with
    | blank hw' h' =>
      have hskip := congrArg skipSpace heq
      rw [Shows.skipSpace_value hw h, Shows.skipSpace_value hw' h'] at hskip
      exact ih _ _ r r' h' hr hr' hskip
  | @noElement first w hw =>
    intro vs' s' r r' h' heq
    cases h' with
    | noElement hw' => exact ⟨rfl, blank_append_inj hw hw' (by decide) heq⟩
    | element hl h' hs' => exact absurd heq.symm (by simpa using hl.element_ne_close h' hw)
  | @element first v vs l s s₂ hl h hs ihv ihs =>
    intro vs' s' r r' h' heq
    cases h' with
    | noElement hw' => exact absurd heq (by simpa using hl.element_ne_close h hw')
    | element hl' h' hs' =>
      have hvalue := hl.append_inj hl' (by simpa using heq)
      obtain ⟨rfl, hrest⟩ := ihv _ _ _ _ h' (hs.ends_elements r) (hs'.ends_elements r') hvalue
      obtain ⟨rfl, hr⟩ := ihs _ _ r r' hs' hrest
      exact ⟨rfl, hr⟩
  | @noMember first w hw =>
    intro ms' s' r r' h' heq
    cases h' with
    | noMember hw' => exact ⟨rfl, blank_append_inj hw hw' (by decide) heq⟩
    | member hl hw' hn hw'' h' hs' => exact absurd heq.symm (by simpa using hl.name_ne_close hw' hw)
  | @member first n v ms l w w₁ s s₁ hl hw hn hw₁ h hs ihv ihs =>
    intro ms' s' r r' h' heq
    cases h' with
    | noMember hw' => exact absurd heq (by simpa using hl.name_ne_close hw hw')
    | member hl' hw' hn' hw₁' h' hs' =>
      have hquote := hl.append_inj hl' (by simpa using heq)
      have hname := blank_append_inj hw hw' (by decide) hquote
      obtain ⟨rfl, hcolon⟩ := hn.append_inj hn' hname
      have hvalue := blank_append_inj hw₁ hw₁' (by decide) hcolon
      obtain ⟨rfl, hrest⟩ := ihv _ _ _ _ h' (hs.ends_members r) (hs'.ends_members r') hvalue
      obtain ⟨rfl, hr⟩ := ihs _ _ r r' hs' hrest
      exact ⟨rfl, hr⟩

/-- A document has at most one form. -/
theorem Shown.unique {doc : Bytes} {v v' : Form} (h : Shown doc v) (h' : Shown doc v') : v = v' := by
  obtain ⟨s, w, rfl, hs, hw⟩ := h
  obtain ⟨s', w', heq, hs', hw'⟩ := h'
  exact (hs.alone v' s' w w' hs' (ends_of_blank hw) (ends_of_blank hw') heq).1

theorem word_eq_ok {w s r : Bytes} (h : word w s = .ok r) : s = w ++ r := by
  induction w generalizing s with
  | nil =>
    cases h
    rfl
  | cons b w ih =>
    cases s with
    | nil => simp [word, faultAt] at h
    | cons c s =>
      rw [word] at h
      split at h
      · next hc => rw [ih h, hc, List.cons_append]
      · simp [faultAt] at h

theorem skipScalar_eq_ok {s r : Bytes} (h : skipScalar s = .ok r) :
    ∃ v s', s = s' ++ r ∧ Shows (.bare v) s' := by
  cases s with
  | nil => simp [skipScalar, faultAt] at h
  | cons b s =>
    rw [skipScalar] at h
    split at h
    · next hb =>
      rw [word_eq_ok h, hb]
      exact ⟨_, _, rfl, .word (.inl rfl)⟩
    split at h
    · next hb =>
      rw [word_eq_ok h, hb]
      exact ⟨_, _, rfl, .word (.inr (.inl rfl))⟩
    split at h
    · next hb =>
      rw [word_eq_ok h, hb]
      exact ⟨_, _, rfl, .word (.inr (.inr (.inl rfl)))⟩
    split at h
    · next hb =>
      obtain ⟨n, hn, hs⟩ := skipNumber_eq_ok true h
      exact ⟨.word n.bytes, n.bytes, by simp [Numeral.bytes, hn, hs, hb], .numeral n⟩
    split at h
    · obtain ⟨n, hn, hs⟩ := skipNumber_eq_ok false h
      exact ⟨.word n.bytes, n.bytes, by simp [Numeral.bytes, hn, hs], .numeral n⟩
    split at h
    · next hb =>
      obtain ⟨s', rfl, hs'⟩ := skipText_eq_ok h
      exact ⟨.text s', _, by simp [hb], .text hs'⟩
    · simp [faultOn] at h

/-- What closes the open brackets, the innermost one first. -/
inductive Closes : List Bracket → Bytes → Prop
  | nil : Closes [] []
  | list {outer : List Bracket} {vs : List Form} {s s' : Bytes} (h : Shows (.elements false vs) s)
      (hs : Closes outer s') : Closes (.list :: outer) (s ++ 0x5d :: s')
  | object {outer : List Bracket} {ms : List (Bytes × Form)} {s s' : Bytes}
      (h : Shows (.members false ms) s) (hs : Closes outer s') :
      Closes (.object :: outer) (s ++ 0x7d :: s')

/-- What has been passed over, up to what closes the open brackets. -/
def Passed (stack : List Bracket) (s r : Bytes) : Want → Prop
  | .value => ∃ v s' c, s = s' ++ (c ++ r) ∧ Shows (.value v) s' ∧ Closes stack c
  | .member => ∃ w n w' v s' c, s = w ++ 0x22 :: (n ++ 0x22 :: (w' ++ 0x3a :: (s' ++ (c ++ r)))) ∧
      Blank w ∧ Quoted n ∧ Blank w' ∧ Shows (.value v) s' ∧ Closes stack c
  | .close => ∃ c, s = c ++ r ∧ Closes stack c

/-- Whatever is passed over has a form, and what follows closes the open brackets. -/
theorem skipWanted_eq_ok {want : Want} {stack : List Bracket} {s r : Bytes}
    (h : skipWanted want stack s = .ok r) : Passed stack s r want := by
  fun_induction skipWanted want stack s with
  | case2 stack s t hs _ t' ht _ ih =>
    obtain ⟨w, hw, rfl⟩ := skipSpace_eq_cons hs
    obtain ⟨w', hw', rfl⟩ := skipSpace_eq_cons ht
    obtain ⟨c, rfl, hc⟩ := ih h
    exact ⟨.list [], _, c, by simp, .blank hw (.list (.noElement hw')), hc⟩
  | case3 stack s t hs _ b t' _ _ ih =>
    obtain ⟨w, hw, rfl⟩ := skipSpace_eq_cons hs
    obtain ⟨v, s', c, rfl, hv, hc⟩ := ih h
    cases hc with
    | list hvs hc => exact ⟨_, _, _, by simp, .blank hw (.list (.element leads_first hv hvs)), hc⟩
  | case5 stack s t hs _ t' ht _ ih =>
    obtain ⟨w, hw, rfl⟩ := skipSpace_eq_cons hs
    obtain ⟨w', hw', rfl⟩ := skipSpace_eq_cons ht
    obtain ⟨c, rfl, hc⟩ := ih h
    exact ⟨.object [], _, c, by simp, .blank hw (.object (.noMember hw')), hc⟩
  | case6 stack s t hs _ b t' _ _ ih =>
    obtain ⟨w, hw, rfl⟩ := skipSpace_eq_cons hs
    obtain ⟨w', n, w'', v, s', c, rfl, hw', hn, hw'', hv, hc⟩ := ih h
    cases hc with
    | object hms hc =>
      exact ⟨_, _, _, by simp, .blank hw (.object (.member leads_first hw' hn hw'' hv hms)), hc⟩
  | case8 stack s t _ _ hskip _ ih =>
    obtain ⟨w, hw, hs⟩ := exists_blank s
    obtain ⟨v, s', ht, hv⟩ := skipScalar_eq_ok hskip
    obtain ⟨c, rfl, hc⟩ := ih h
    exact ⟨v, w ++ s', c, by rw [hs, ht, List.append_assoc], .blank hw hv, hc⟩
  | case12 stack s t hs _ t' htext _ t'' hcolon _ ih =>
    obtain ⟨w, hw, rfl⟩ := skipSpace_eq_cons hs
    obtain ⟨n, rfl, hn⟩ := skipText_eq_ok htext
    obtain ⟨w', hw', rfl⟩ := skipSpace_eq_cons hcolon
    obtain ⟨v, s', c, rfl, hv, hc⟩ := ih h
    exact ⟨w, n, w', v, s', c, rfl, hw, hn, hw', hv, hc⟩
  | case15 =>
    cases h
    exact ⟨[], rfl, .nil⟩
  | case17 s outer t hs _ ih =>
    obtain ⟨w, hw, rfl⟩ := skipSpace_eq_cons hs
    obtain ⟨v, s', c, rfl, hv, hc⟩ := ih h
    cases hc with
    | list hvs hc => exact ⟨_, by simp, .list (.element (leads_comma hw) hv hvs) hc⟩
  | case18 s outer t hs _ ih =>
    obtain ⟨w, hw, rfl⟩ := skipSpace_eq_cons hs
    obtain ⟨c, rfl, hc⟩ := ih h
    exact ⟨_, by simp, .list (.noElement hw) hc⟩
  | case21 s outer t hs _ ih =>
    obtain ⟨w, hw, rfl⟩ := skipSpace_eq_cons hs
    obtain ⟨w', n, w'', v, s', c, rfl, hw', hn, hw'', hv, hc⟩ := ih h
    cases hc with
    | object hms hc =>
      exact ⟨_, by simp, .object (.member (leads_comma hw) hw' hn hw'' hv hms) hc⟩
  | case22 s outer t hs _ ih =>
    obtain ⟨w, hw, rfl⟩ := skipSpace_eq_cons hs
    obtain ⟨c, rfl, hc⟩ := ih h
    exact ⟨_, by simp, .object (.noMember hw) hc⟩
  | _ => simp [faultAt, faultOn] at h

theorem skipValue_eq_ok {s r : Bytes} (h : skipValue s = .ok r) :
    ∃ v s', s = s' ++ r ∧ Shows (.value v) s' := by
  obtain ⟨v, s', c, rfl, hv, hc⟩ := skipWanted_eq_ok h
  cases hc
  exact ⟨v, s', rfl, hv⟩

end Json
end TenantGate
