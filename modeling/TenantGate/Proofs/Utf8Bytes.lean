import TenantGate.Bytes
/-!
# The bytes of characters

An ASCII character is a single byte, and all bytes of any other character are beyond ASCII.
-/

namespace TenantGate
namespace Bytes

theorem utf8_of_lt {c : Char} (h : c.toNat < 0x80) :
    String.utf8EncodeChar c = [UInt8.ofNat c.toNat] := by
  simp only [String.utf8EncodeChar, Char.toNat] at *
  rw [if_pos (by omega)]

theorem le_of_mem_utf8 {c : Char} (h : 0x80 ≤ c.toNat) {b : UInt8}
    (hb : b ∈ String.utf8EncodeChar c) : 0x80 ≤ b.toNat := by
  simp only [Char.toNat] at h
  simp only [String.utf8EncodeChar] at hb
  split at hb
  · omega
  · split at hb
    · simp only [List.mem_cons, List.not_mem_nil, or_false] at hb
      rcases hb with rfl | rfl <;> simp <;> omega
    · split at hb
      · simp only [List.mem_cons, List.not_mem_nil, or_false] at hb
        rcases hb with rfl | rfl | rfl <;> simp <;> omega
      · simp only [List.mem_cons, List.not_mem_nil, or_false] at hb
        rcases hb with rfl | rfl | rfl | rfl <;> simp <;> omega

theorem ofText_ofList (l : List Char) :
    ofText (String.ofList l) = l.flatMap String.utf8EncodeChar := by
  simp [ofText, String.toUTF8, List.utf8Encode]

theorem ofText_eq_flatMap (s : String) : ofText s = s.toList.flatMap String.utf8EncodeChar := by
  rw [← ofText_ofList, String.ofList_toList]

theorem ofText_append (s t : String) : ofText (s ++ t) = ofText s ++ ofText t := by
  simp only [ofText_eq_flatMap, String.toList_append, List.flatMap_append]

theorem lt_of_mem_ofText {s : String} (h : ∀ b ∈ ofText s, b.toNat < 0x80) :
    ∀ c ∈ s.toList, c.toNat < 0x80 := by
  intro c hc
  by_cases hlt : c.toNat < 0x80
  · exact hlt
  · obtain ⟨b, hb⟩ := List.exists_mem_of_ne_nil _ (String.utf8EncodeChar_ne_nil (c := c))
    have hmem : b ∈ ofText s := ofText_eq_flatMap s ▸ List.mem_flatMap.2 ⟨c, hc, hb⟩
    have := le_of_mem_utf8 (by omega) hb
    have := h b hmem
    omega

theorem ofText_of_ascii {s : String} (h : ∀ c ∈ s.toList, c.toNat < 0x80) :
    ofText s = s.toList.map fun c => UInt8.ofNat c.toNat := by
  rw [ofText_eq_flatMap]
  generalize s.toList = cs at h
  induction cs with
  | nil => rfl
  | cons c cs ih =>
    have hc := utf8_of_lt (h c List.mem_cons_self)
    rw [List.flatMap_cons, hc, ih fun d hd => h d (List.mem_cons_of_mem c hd)]
    rfl

theorem ofText_lt {s t : String} (h : s < t) (hs : ∀ c ∈ s.toList, c.toNat < 128)
    (ht : ∀ c ∈ t.toList, c.toNat < 128) : ofText s < ofText t := by
  rw [String.lt_iff] at h
  rw [ofText_of_ascii hs, ofText_of_ascii ht]
  generalize s.toList = cs at h hs
  generalize t.toList = ds at h ht
  induction cs generalizing ds with
  | nil =>
    cases ds with
    | nil => exact absurd h (List.lt_irrefl _)
    | cons d ds => exact List.nil_lt_cons _ _
  | cons c cs ih =>
    cases ds with
    | nil => exact absurd h (List.not_lt_nil _)
    | cons d ds =>
      rw [List.forall_mem_cons] at hs ht
      rw [List.map_cons, List.map_cons, List.cons_lt_cons_iff]
      rcases List.cons_lt_cons_iff.1 h with hlt | ⟨rfl, hlt⟩
      · left
        have hchars : c.toNat < d.toNat := UInt32.lt_iff_toNat_lt.1 hlt
        rw [UInt8.lt_iff_toNat_lt, UInt8.toNat_ofNat', UInt8.toNat_ofNat']
        omega
      · exact .inr ⟨rfl, ih hs.2 ds hlt ht.2⟩

theorem latin1_ofText {s : String} (h : ∀ b ∈ ofText s, b.toNat < 0x80) : latin1 (ofText s) = s := by
  have hascii := lt_of_mem_ofText h
  have back : ∀ c ∈ s.toList, Char.ofNat (UInt8.ofNat c.toNat).toNat = c := by
    intro c hc
    have hlt := hascii c hc
    have hbyte : (UInt8.ofNat c.toNat).toNat = c.toNat := by
      rw [UInt8.toNat_ofNat']
      omega
    rw [hbyte, Char.ofNat_toNat]
  have same : (s.toList.map fun c => UInt8.ofNat c.toNat).map (fun x => Char.ofNat x.toNat)
      = s.toList := by
    rw [List.map_map]
    exact (List.map_congr_left back).trans (List.map_id' _)
  rw [latin1, ofText_of_ascii hascii, same, String.ofList_toList]

theorem text?_utf8 (l : List Char) :
    text? (l.flatMap String.utf8EncodeChar) = some (String.ofList l) := by
  rw [← ofText_ofList, text?_ofText]

theorem utf8_append_inj {c d : Char} {o o' : Bytes}
    (h : String.utf8EncodeChar c ++ o = String.utf8EncodeChar d ++ o') : c = d ∧ o = o' := by
  have first (c : Char) (o : Bytes) :
      (String.utf8EncodeChar c ++ o).toByteArray.utf8DecodeChar? 0 = some c := by
    rw [List.toByteArray_append]
    exact ByteArray.utf8DecodeChar?_utf8EncodeChar_append
  have hc : c = d := by
    have hboth := first c o
    rw [h, first d o'] at hboth
    exact (Option.some.inj hboth).symm
  subst hc
  exact ⟨rfl, List.append_cancel_left h⟩

/-- A character starts with a byte that tells how many follow, and those start no character. -/
theorem utf8_eq_cons (c : Char) :
    ∃ b tail, String.utf8EncodeChar c = b :: tail ∧ b.IsUTF8FirstByte ∧
      ∀ x ∈ tail, ¬x.IsUTF8FirstByte := by
  have start (i : Nat) (hi : i < (String.utf8EncodeChar c).length) :
      (String.utf8EncodeChar c)[i].IsUTF8FirstByte ↔ i = 0 :=
    UInt8.isUTF8FirstByte_getElem_utf8EncodeChar
  obtain ⟨b, tail, heq⟩ := List.exists_cons_of_ne_nil (String.utf8EncodeChar_ne_nil (c := c))
  simp only [heq] at start
  refine ⟨b, tail, heq, (start 0 (by simp)).2 rfl, ?_⟩
  intro x hx hfirst
  obtain ⟨i, hi, rfl⟩ := List.mem_iff_getElem.1 hx
  have hsucc := (start (i + 1) (by simpa using hi)).1 (by simpa using hfirst)
  omega

end Bytes
end TenantGate
