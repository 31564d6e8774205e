import TenantGate.Proofs.FormPairs
import TenantGate.Proofs.Utf8Pieces
/-!
# How pairs are written in a form

A byte may be percent-encoded with digits of either case, a space may be a plus, and what separates
nothing may stand as it is.  However pairs are written, reading the form finds them again.
-/

namespace TenantGate
namespace Form

/-- The ways to write bytes without any of the separators. -/
inductive Writes (separators : List Char) : Bytes → List Char → Prop
  | nil : Writes separators [] []
  | encoded {a b : Char} {x y : Nat} {bytes : Bytes} {s : List Char}
      (ha : Percent.digitValue? a = some x) (hb : Percent.digitValue? b = some y)
      (rest : Writes separators bytes s) :
      Writes separators (UInt8.ofNat (x * 16 + y) :: bytes) ('%' :: a :: b :: s)
  | plus {bytes : Bytes} {s : List Char} (rest : Writes separators bytes s) :
      Writes separators (0x20 :: bytes) ('+' :: s)
  | literal {c : Char} {bytes : Bytes} {s : List Char} (hseparator : c ∉ separators)
      (hplus : c ≠ '+') (hpercent : c ≠ '%') (rest : Writes separators bytes s) :
      Writes separators (String.utf8EncodeChar c ++ bytes) (c :: s)
  | percent {bytes : Bytes} {s : List Char} (hs : ¬Percent.StartsByte s)
      (rest : Writes separators bytes s) : Writes separators (0x25 :: bytes) ('%' :: s)

variable {separators : List Char} {bytes : Bytes} {s : List Char}

theorem spaced_plus : spaced '+' = ' ' := if_pos rfl

theorem spaced_of_ne {c : Char} (h : c ≠ '+') : spaced c = c := if_neg h

theorem spaced_percent : spaced '%' = '%' := spaced_of_ne (by decide)

theorem digitValue?_spaced {c : Char} {x : Nat} :
    Percent.digitValue? (spaced c) = some x ↔ Percent.digitValue? c = some x := by
  by_cases hc : c = '+'
  · subst hc
    have hplus : Percent.digitValue? '+' = none := by decide
    have hspace : Percent.digitValue? ' ' = none := by decide
    simp [spaced_plus, hplus, hspace]
  · rw [spaced_of_ne hc]

theorem startsByte_map_spaced (h : Percent.StartsByte (s.map spaced)) : Percent.StartsByte s := by
  obtain ⟨a, b, x, y, r, heq, ha, hb⟩ := h
  obtain ⟨a', t, rfl, rfl, ht⟩ := List.map_eq_cons_iff.1 heq
  obtain ⟨b', r', rfl, rfl, hr⟩ := List.map_eq_cons_iff.1 ht
  exact ⟨a', b', x, y, r', rfl, digitValue?_spaced.1 ha, digitValue?_spaced.1 hb⟩

theorem Writes.decode_spaced (h : Writes separators bytes s) :
    Percent.decode (s.map spaced) = bytes := by
  induction h with
  | nil => rfl
  | encoded ha hb _ ih =>
    rw [List.map_cons, List.map_cons, List.map_cons, spaced_percent,
      Percent.decode_byte (digitValue?_spaced.2 ha) (digitValue?_spaced.2 hb), ih]
  | plus _ ih =>
    rw [List.map_cons, spaced_plus, Percent.decode_cons (by decide), ih]
    rfl
  | literal _ hplus hpercent _ ih =>
    rw [List.map_cons, spaced_of_ne hplus, Percent.decode_cons hpercent, ih]
  | percent hs _ ih =>
    rw [List.map_cons, spaced_percent, Percent.decode_percent fun h => hs (startsByte_map_spaced h), ih]

/-- However a text is written, it is read back. -/
theorem Writes.decode_eq {text : String} (h : Writes separators (Bytes.ofText text) s) :
    decode s = text := by
  change Utf8.decodeLossy (Percent.decode (s.map spaced)) = text
  rw [h.decode_spaced, Utf8.decodeLossy_ofText]

theorem Writes.not_mem {c : Char} (h : Writes separators bytes s) (hc : c ∈ separators)
    (hplus : c ≠ '+') (hpercent : c ≠ '%') (hdigit : Percent.digitValue? c = none) : c ∉ s := by
  induction h with
  | nil => exact List.not_mem_nil
  | encoded ha hb _ ih =>
    simp only [List.mem_cons, not_or]
    refine ⟨hpercent, ?_, ?_, ih⟩
    · rintro rfl
      rw [hdigit] at ha
      cases ha
    · rintro rfl
      rw [hdigit] at hb
      cases hb
  | plus _ ih => exact List.not_mem_cons_of_ne_of_not_mem hplus ih
  | literal hseparator _ _ _ ih =>
    exact List.not_mem_cons_of_ne_of_not_mem (fun heq => hseparator (heq ▸ hc)) ih
  | percent _ _ ih => exact List.not_mem_cons_of_ne_of_not_mem hpercent ih

theorem writes_decode (h : ∀ c ∈ s, c ∉ separators) :
    Writes separators (Percent.decode (s.map spaced)) s := by
  induction s using Percent.decode_induction with
  | nil => exact .nil
  | byte a b x y s ha hb ih =>
    simp only [List.forall_mem_cons] at h
    rw [List.map_cons, List.map_cons, List.map_cons, spaced_percent,
      Percent.decode_byte (digitValue?_spaced.2 ha) (digitValue?_spaced.2 hb)]
    exact .encoded ha hb (ih h.2.2.2)
  | percent s hs ih =>
    rw [List.map_cons, spaced_percent,
      Percent.decode_percent fun hbyte => hs (startsByte_map_spaced hbyte)]
    exact .percent hs (ih fun c hc => h c (List.mem_cons_of_mem _ hc))
  | char c s hc ih =>
    have hrest := ih fun d hd => h d (List.mem_cons_of_mem _ hd)
    by_cases hplus : c = '+'
    · subst hplus
      rw [List.map_cons, spaced_plus, Percent.decode_cons (by decide)]
      exact .plus hrest
    · rw [List.map_cons, spaced_of_ne hplus, Percent.decode_cons hc]
      exact .literal (h c List.mem_cons_self) hplus hc hrest

theorem writes_of_decode (h : (s.all fun c => !separators.contains c) = true)
    (hbytes : Percent.decode (s.map spaced) = bytes) : Writes separators bytes s := by
  have hfree : ∀ c ∈ s, c ∉ separators := by simpa using h
  exact hbytes ▸ writes_decode hfree

/-- The ways to write a pair: an equals sign may be left out before an empty value. -/
inductive WritesPair : String × String → List Char → Prop
  | full {name value : String} {n v : List Char} (hn : Writes ['&', '='] (Bytes.ofText name) n)
      (hv : Writes ['&'] (Bytes.ofText value) v) : WritesPair (name, value) (n ++ '=' :: v)
  | bare {name : String} {n : List Char} (hn : Writes ['&', '='] (Bytes.ofText name) n) :
      WritesPair (name, "") n

/-- The ways to write pairs between ampersands, among which empty texts may stand. -/
inductive WritesPairs : List (String × String) → List (List Char) → Prop
  | nil : WritesPairs [] []
  | empty {pairs : List (String × String)} {texts : List (List Char)}
      (rest : WritesPairs pairs texts) : WritesPairs pairs ([] :: texts)
  | pair {p : String × String} {s : List Char} {pairs : List (String × String)}
      {texts : List (List Char)} (hp : WritesPair p s) (rest : WritesPairs pairs texts) :
      WritesPairs (p :: pairs) (s :: texts)

/-- A query is a way to write pairs. -/
def Renders (pairs : List (String × String)) (query : String) : Prop :=
  ∃ texts, WritesPairs pairs texts ∧ query.toList = ['&'].intercalate texts

variable {p : String × String} {written : List (String × String)} {texts : List (List Char)}

theorem Writes.ampersand_not_mem (h : Writes separators bytes s) (hc : '&' ∈ separators) : '&' ∉ s :=
  h.not_mem hc (by decide) (by decide) (by decide)

theorem Writes.equals_not_mem (h : Writes separators bytes s) (hc : '=' ∈ separators) : '=' ∉ s :=
  h.not_mem hc (by decide) (by decide) (by decide)

theorem WritesPair.ampersand_not_mem (h : WritesPair p s) : '&' ∉ s := by
  cases h with
  | full hn hv =>
    simp only [List.mem_append, List.mem_cons, not_or]
    exact ⟨hn.ampersand_not_mem (by simp), by decide, hv.ampersand_not_mem (by simp)⟩
  | bare hn => exact hn.ampersand_not_mem (by simp)

theorem decode_nil : decode [] = "" := by
  change Utf8.decodeLossy (Bytes.ofText "") = ""
  exact Utf8.decodeLossy_ofText ""

theorem WritesPair.decodePair_eq (h : WritesPair p s) : decodePair s = p := by
  cases h with
  | full hn hv =>
    rw [decodePair, splitPair_append (hn.equals_not_mem (by simp))]
    exact Prod.ext hn.decode_eq hv.decode_eq
  | bare hn =>
    rw [decodePair, splitPair_of_not_mem (hn.equals_not_mem (by simp))]
    exact Prod.ext hn.decode_eq decode_nil

theorem WritesPair.pairs_eq (h : WritesPair p s) : pairs s = [p] ∨ p = ("", "") ∧ pairs s = [] := by
  rw [pairs_of_not_mem h.ampersand_not_mem]
  by_cases hs : s = []
  · rw [if_pos hs]
    refine .inr ⟨?_, rfl⟩
    rw [← h.decodePair_eq, hs, decodePair]
    exact Prod.ext decode_nil decode_nil
  · rw [if_neg hs, h.decodePair_eq]
    exact .inl rfl

theorem pairs_intercalate_cons (s : List Char) (texts : List (List Char)) :
    pairs (['&'].intercalate (s :: texts)) = pairs s ++ pairs (['&'].intercalate texts) := by
  cases texts with
  | nil =>
    have hnil : pairs ([] : List Char) = [] := rfl
    rw [List.intercalate_singleton, List.intercalate_nil, hnil, List.append_nil]
  | cons t texts =>
    rw [List.intercalate_cons_cons, List.append_assoc, List.singleton_append, pairs_append]

theorem WritesPairs.lookup_eq (h : WritesPairs written texts) {name : String} (hname : name ≠ "") :
    (pairs (['&'].intercalate texts)).lookup name = written.lookup name := by
  induction h with
  | nil => rfl
  | empty _ ih =>
    have hnil : pairs ([] : List Char) = [] := rfl
    rw [pairs_intercalate_cons, hnil, List.nil_append, ih]
  | @pair p s written texts hp _ ih =>
    rw [pairs_intercalate_cons, List.lookup_append, ih]
    rcases hp.pairs_eq with hs | ⟨rfl, hs⟩
    · rw [hs, ← List.lookup_append, List.singleton_append]
    · -- the pair that may be lost has another name
      have hother : (name == "") = false := beq_false_of_ne hname
      rw [hs, List.lookup_nil, Option.none_or, List.lookup_cons, hother]

/-- However pairs are written, the first value of a name is found. -/
theorem Renders.lookup?_eq {query : String} (h : Renders written query) {name : String}
    (hname : name ≠ "") : lookup? query name = written.lookup name := by
  obtain ⟨texts, hwrites, hquery⟩ := h
  rw [lookup?, parse_eq_pairs, hquery, hwrites.lookup_eq hname]

end Form
end TenantGate
