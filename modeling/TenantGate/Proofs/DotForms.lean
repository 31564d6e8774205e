import TenantGate.Proofs.PercentDecoding
import TenantGate.Proofs.Utf8Bytes
import TenantGate.Proxy.DotSegment
import TenantGate.Url.Basic
/-!
# The forms of dot segments

A segment that is refused is one that would be resolved, and both are the segments that stand for
one dot or for two.
-/

namespace TenantGate

/-- One dot in a path, as it may be written. -/
inductive Dot : List Char → Prop
  | plain : Dot ['.']
  | lower : Dot ['%', '2', 'e']
  | upper : Dot ['%', '2', 'E']

namespace Dot

theorem toLower_eq_dot {c : Char} : c.toLower = '.' ↔ c = '.' :=
  ⟨Text.forall_toLower (by decide) (P := (· = '.')) (by decide), fun h => by subst h; decide⟩

theorem toLower_eq_percent {c : Char} : c.toLower = '%' ↔ c = '%' :=
  ⟨Text.forall_toLower (by decide) (P := (· = '%')) (by decide), fun h => by subst h; decide⟩

theorem toLower_eq_two {c : Char} : c.toLower = '2' ↔ c = '2' :=
  ⟨Text.forall_toLower (by decide) (P := (· = '2')) (by decide), fun h => by subst h; decide⟩

theorem toLower_eq_e {c : Char} : c.toLower = 'e' ↔ c = 'e' ∨ c = 'E' := by
  constructor
  · exact Text.forall_toLower (by decide) (P := fun c => c = 'e' ∨ c = 'E') (by decide)
  · rintro (rfl | rfl) <;> decide

theorem iff_map_toLower {s : List Char} :
    Dot s ↔ s.map Char.toLower = ['.'] ∨ s.map Char.toLower = ['%', '2', 'e'] := by
  constructor
  · rintro (_ | _ | _) <;> decide
  · rintro (h | h)
    · obtain ⟨c, rfl, hc⟩ := List.map_eq_singleton_iff.1 h
      rw [toLower_eq_dot.1 hc]
      exact .plain
    · obtain ⟨a, r, rfl, ha, hr⟩ := List.map_eq_cons_iff.1 h
      obtain ⟨b, r, rfl, hb, hr⟩ := List.map_eq_cons_iff.1 hr
      obtain ⟨c, rfl, hc⟩ := List.map_eq_singleton_iff.1 hr
      rw [toLower_eq_percent.1 ha, toLower_eq_two.1 hb]
      rcases toLower_eq_e.1 hc with rfl | rfl
      · exact .lower
      · exact .upper

theorem toLower_ofList_eq_iff {s : List Char} {t : String} :
    (String.ofList s).toLower = t ↔ s.map Char.toLower = t.toList := by
  rw [← String.toList_inj, Text.toList_toLower, String.toList_ofList]

theorem isSingleDot_iff {s : List Char} : Url.isSingleDot s = true ↔ Dot s := by
  simp only [Url.isSingleDot, List.contains_iff_mem, List.mem_cons, List.not_mem_nil, or_false,
    toLower_ofList_eq_iff, iff_map_toLower]
  rfl

theorem isDoubleDot_iff {s : List Char} :
    Url.isDoubleDot s = true ↔ ∃ a b, Dot a ∧ Dot b ∧ s = a ++ b := by
  simp only [Url.isDoubleDot, List.contains_iff_mem, List.mem_cons, List.not_mem_nil, or_false,
    toLower_ofList_eq_iff]
  constructor
  · have cut {x y : List Char} (hx : x = ['.'] ∨ x = ['%', '2', 'e'])
        (hy : y = ['.'] ∨ y = ['%', '2', 'e']) (h : s.map Char.toLower = x ++ y) :
        ∃ a b, Dot a ∧ Dot b ∧ s = a ++ b := by
      obtain ⟨a, b, rfl, ha, hb⟩ := List.map_eq_append_iff.1 h
      exact ⟨a, b, iff_map_toLower.2 (ha ▸ hx), iff_map_toLower.2 (hb ▸ hy), rfl⟩
    rintro (h | h | h | h)
    · exact cut (.inl rfl) (.inl rfl) h
    · exact cut (.inl rfl) (.inr rfl) h
    · exact cut (.inr rfl) (.inl rfl) h
    · exact cut (.inr rfl) (.inr rfl) h
  · rintro ⟨a, b, ha, hb, rfl⟩
    rw [List.map_append]
    rcases iff_map_toLower.1 ha with ha | ha <;> rcases iff_map_toLower.1 hb with hb | hb <;>
      rw [ha, hb] <;> decide

theorem decodeDots_eq_cons {m t : List Char} (h : DotSegment.decodeDots m = '.' :: t) :
    ∃ a r, (a = ['.'] ∨ a = ['%', '2', 'e']) ∧ m = a ++ r ∧ DotSegment.decodeDots r = t := by
  unfold DotSegment.decodeDots at h
  split at h
  · next r => exact ⟨['%', '2', 'e'], r, .inr rfl, rfl, (List.cons.inj h).2⟩
  · next c r _ =>
    obtain ⟨rfl, hr⟩ := List.cons.inj h
    exact ⟨['.'], r, .inl rfl, rfl, hr⟩
  · cases h

theorem decodeDots_eq_nil {m : List Char} (h : DotSegment.decodeDots m = []) : m = [] := by
  unfold DotSegment.decodeDots at h
  split at h
  · cases h
  · cases h
  · rfl

/-- Both places where dots count take the same segments. -/
theorem isDotSegment_iff {s : List Char} : DotSegment.isDotSegment s = true ↔
    Url.isSingleDot s = true ∨ Url.isDoubleDot s = true := by
  rw [isSingleDot_iff, isDoubleDot_iff]
  simp only [DotSegment.isDotSegment, Bool.or_eq_true, beq_iff_eq]
  constructor
  · rintro (h | h)
    · obtain ⟨a, r, ha, hs, hr⟩ := decodeDots_eq_cons h
      rw [decodeDots_eq_nil hr, List.append_nil] at hs
      exact .inl (iff_map_toLower.2 (hs ▸ ha))
    · obtain ⟨a, r, ha, hs, hr⟩ := decodeDots_eq_cons h
      obtain ⟨b, r', hb, rfl, hr'⟩ := decodeDots_eq_cons hr
      rw [decodeDots_eq_nil hr', List.append_nil] at hs
      obtain ⟨x, y, rfl, hx, hy⟩ := List.map_eq_append_iff.1 hs
      exact .inr ⟨x, y, iff_map_toLower.2 (hx ▸ ha), iff_map_toLower.2 (hy ▸ hb), rfl⟩
  · rintro (h | ⟨a, b, ha, hb, rfl⟩)
    · left
      rcases iff_map_toLower.1 h with h | h <;> rw [h] <;> decide
    · right
      rw [List.map_append]
      rcases iff_map_toLower.1 ha with ha | ha <;> rcases iff_map_toLower.1 hb with hb | hb <;>
        rw [ha, hb] <;> decide

theorem decode_append {a : List Char} (ha : Dot a) (s : List Char) :
    Percent.decode (a ++ s) = 0x2e :: Percent.decode s := by
  cases ha with
  | plain => exact Percent.decode_cons (by decide) s
  | lower => exact Percent.decode_byte (x := 2) (y := 14) (by decide) (by decide) s
  | upper => exact Percent.decode_byte (x := 2) (y := 14) (by decide) (by decide) s

theorem of_digits {a b : Char} {x y : Nat} (ha : Percent.digitValue? a = some x)
    (hb : Percent.digitValue? b = some y) (h : UInt8.ofNat (x * 16 + y) = 0x2e) :
    Dot ['%', a, b] := by
  have hx := Percent.digitValue?_lt ha
  have hy := Percent.digitValue?_lt hb
  have hsum : (UInt8.ofNat (x * 16 + y)).toNat = 0x2e := congrArg UInt8.toNat h
  rw [UInt8.toNat_ofNat'] at hsum
  obtain ⟨rfl, rfl⟩ : x = 2 ∧ y = 14 := by omega
  have htwo : a = '2' := Percent.forall_digit
    (P := fun c => Percent.digitValue? c = some 2 → c = '2') (by decide) (by rw [ha]; rfl) ha
  have he : b = 'e' ∨ b = 'E' := Percent.forall_digit
    (P := fun c => Percent.digitValue? c = some 14 → c = 'e' ∨ c = 'E') (by decide)
    (by rw [hb]; rfl) hb
  subst htwo
  rcases he with rfl | rfl
  · exact .lower
  · exact .upper

theorem of_decode_eq_cons {s : List Char} {t : Bytes} (h : Percent.decode s = 0x2e :: t) :
    ∃ a r, Dot a ∧ s = a ++ r ∧ Percent.decode r = t := by
  induction s using Percent.decode_induction with
  | nil => cases h
  | byte a b x y s ha hb _ =>
    rw [Percent.decode_byte ha hb] at h
    obtain ⟨hdot, ht⟩ := List.cons.inj h
    exact ⟨['%', a, b], s, of_digits ha hb hdot, rfl, ht⟩
  | percent s hs _ =>
    rw [Percent.decode_percent hs] at h
    exact absurd (List.cons.inj h).1 (by decide)
  | char c s hc _ =>
    rw [Percent.decode_cons hc] at h
    by_cases hlt : c.toNat < 0x80
    · rw [Bytes.utf8_of_lt hlt] at h
      obtain ⟨hdot, ht⟩ := List.cons.inj h
      have hn : (UInt8.ofNat c.toNat).toNat = 0x2e := congrArg UInt8.toNat hdot
      rw [UInt8.toNat_ofNat'] at hn
      obtain rfl : c = '.' := Char.toNat_inj.1 (by rw [show '.'.toNat = 0x2e from rfl]; omega)
      exact ⟨['.'], s, .plain, rfl, ht⟩
    · obtain ⟨b, bs, hu⟩ := List.exists_cons_of_ne_nil (String.utf8EncodeChar_ne_nil (c := c))
      have hb : 0x80 ≤ b.toNat := Bytes.le_of_mem_utf8 (by omega) (hu ▸ List.mem_cons_self)
      rw [hu] at h
      obtain ⟨rfl, _⟩ := List.cons.inj h
      exact absurd hb (by decide)

theorem eq_nil_of_decode {s : List Char} (h : Percent.decode s = []) : s = [] := by
  induction s using Percent.decode_induction with
  | nil => rfl
  | byte a b x y s ha hb _ =>
    rw [Percent.decode_byte ha hb] at h
    cases h
  | percent s hs _ =>
    rw [Percent.decode_percent hs] at h
    cases h
  | char c s hc _ =>
    rw [Percent.decode_cons hc] at h
    exact absurd (List.append_eq_nil_iff.1 h).1 String.utf8EncodeChar_ne_nil

theorem iff_decode {s : List Char} : Dot s ↔ Percent.decode s = [0x2e] := by
  constructor
  · intro h
    have hdecode := decode_append h []
    rw [List.append_nil] at hdecode
    exact hdecode
  · intro h
    obtain ⟨a, r, ha, rfl, hr⟩ := of_decode_eq_cons h
    rw [eq_nil_of_decode hr, List.append_nil]
    exact ha

/-- A segment is refused exactly if it stands for one dot or for two. -/
theorem isDotSegment_iff_decode {s : List Char} : DotSegment.isDotSegment s = true ↔
    Percent.decode s = [0x2e] ∨ Percent.decode s = [0x2e, 0x2e] := by
  rw [isDotSegment_iff, isSingleDot_iff, isDoubleDot_iff, iff_decode]
  have two : (∃ a b, Dot a ∧ Dot b ∧ s = a ++ b) ↔ Percent.decode s = [0x2e, 0x2e] := by
    constructor
    · rintro ⟨a, b, ha, hb, rfl⟩
      rw [decode_append ha, iff_decode.1 hb]
    · intro h
      obtain ⟨a, r, ha, rfl, hr⟩ := of_decode_eq_cons h
      exact ⟨a, r, ha, iff_decode.2 hr, rfl⟩
  rw [two]

theorem isDotSegment_encode {keep : Char → Bool} (hk : Percent.KeepsBytes keep) (s : List Char) :
    DotSegment.isDotSegment (Percent.encode keep s) = DotSegment.isDotSegment s := by
  rw [Bool.eq_iff_iff, isDotSegment_iff_decode, isDotSegment_iff_decode, Percent.decode_encode hk]

end Dot
end TenantGate
