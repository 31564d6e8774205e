import Mathlib.Tactic.Common
import TenantGate.Proofs.Utf8Bytes
import TenantGate.Utf8
/-!
# Cutting well-formed UTF-8

The pieces of the UTF-8 form of a text are its characters, so that nothing in it is replaced.
-/

namespace TenantGate
namespace Utf8

-- the library's lemma has a bound that arithmetic does not see through
theorem toNat_of_lt {n : Nat} (h : n < 256) : (UInt8.ofNat n).toNat = n :=
  UInt8.toNat_ofNat_of_lt' h

theorem isTail_iff {b : UInt8} : isTail b = true ↔ 0x80 ≤ b.toNat ∧ b.toNat ≤ 0xbf := by
  simp [isTail, UInt8.le_iff_toNat_le]

theorem maySecond_iff {a b : UInt8} : maySecond a b = true ↔
    (if a.toNat = 0xe0 then 0xa0 else if a.toNat = 0xf0 then 0x90 else 0x80) ≤ b.toNat ∧
      b.toNat ≤ (if a.toNat = 0xed then 0x9f else if a.toNat = 0xf4 then 0x8f else 0xbf) := by
  simp only [maySecond, isTail, ← UInt8.toNat_inj]
  simp [UInt8.le_iff_toNat_le]
  split_ifs <;> simp_all

theorem tails_cons {total read n : Nat} {b : UInt8} (hb : isTail b = true) (s : Bytes) :
    tails total read (n + 1) (b :: s) = tails total (read + 1) n s := by
  rw [tails, if_pos hb]

theorem piece_one {a : UInt8} (ha : a.toNat < 0x80) (s : Bytes) : piece a s = .char 1 := by
  simp only [piece, UInt8.lt_iff_toNat_lt, UInt8.reduceToNat]
  rw [if_pos ha]

theorem piece_two {a b : UInt8} (ha : 0xc2 ≤ a.toNat ∧ a.toNat ≤ 0xdf) (hb : isTail b = true)
    (s : Bytes) : piece a (b :: s) = .char 2 := by
  simp only [piece, UInt8.lt_iff_toNat_lt, UInt8.le_iff_toNat_le, UInt8.reduceToNat]
  rw [if_neg (by omega), if_pos ha, tails_cons hb, tails]

theorem piece_three {a b c : UInt8} (ha : 0xe0 ≤ a.toNat ∧ a.toNat ≤ 0xef)
    (hb : maySecond a b = true) (hc : isTail c = true) (s : Bytes) :
    piece a (b :: c :: s) = .char 3 := by
  simp only [piece, UInt8.lt_iff_toNat_lt, UInt8.le_iff_toNat_le, UInt8.reduceToNat]
  rw [if_neg (by omega), if_neg (by omega), if_pos ha, if_pos hb, tails_cons hc, tails]

theorem piece_four {a b c d : UInt8} (ha : 0xf0 ≤ a.toNat ∧ a.toNat ≤ 0xf4)
    (hb : maySecond a b = true) (hc : isTail c = true) (hd : isTail d = true) (s : Bytes) :
    piece a (b :: c :: d :: s) = .char 4 := by
  simp only [piece, UInt8.lt_iff_toNat_lt, UInt8.le_iff_toNat_le, UInt8.reduceToNat]
  rw [if_neg (by omega), if_neg (by omega), if_neg (by omega), if_pos ha, if_pos hb, tails_cons hc,
    tails_cons hd, tails]

/-- A character is one piece, whatever comes after it. -/
theorem piece_utf8 (c : Char) (s : Bytes) : ∃ a tail, String.utf8EncodeChar c = a :: tail ∧
    piece a (tail ++ s) = .char (tail.length + 1) := by
  have hvalid := c.valid
  simp only [UInt32.isValidChar, Nat.isValidChar] at hvalid
  simp only [String.utf8EncodeChar]
  generalize c.val.toNat = v at *
  split_ifs with hone htwo hthree
  · exact ⟨_, _, rfl, piece_one (by rw [toNat_of_lt (by omega)]; omega) _⟩
  · refine ⟨_, _, rfl, piece_two ?_ (isTail_iff.2 ?_) _⟩
    all_goals rw [toNat_of_lt (by omega)]; omega
  · refine ⟨_, _, rfl, piece_three ?_ (maySecond_iff.2 ?_) (isTail_iff.2 ?_) _⟩
    · rw [toNat_of_lt (by omega)]; omega
    · -- a shorter form of the character and a surrogate are left out
      rw [toNat_of_lt (by omega), toNat_of_lt (by omega)]
      split_ifs <;> omega
    · rw [toNat_of_lt (by omega)]; omega
  · refine ⟨_, _, rfl, piece_four ?_ (maySecond_iff.2 ?_) (isTail_iff.2 ?_) (isTail_iff.2 ?_) _⟩
    · rw [toNat_of_lt (by omega)]; omega
    · rw [toNat_of_lt (by omega), toNat_of_lt (by omega)]
      split_ifs <;> omega
    all_goals rw [toNat_of_lt (by omega)]; omega

theorem pieces_utf8 (c : Char) (s : Bytes) :
    pieces (String.utf8EncodeChar c ++ s) = (true, String.utf8EncodeChar c) :: pieces s := by
  obtain ⟨a, tail, heq, hpiece⟩ := piece_utf8 c s
  rw [heq, List.cons_append, pieces, hpiece]
  simp

theorem pieces_flatMap (cs : List Char) : pieces (cs.flatMap String.utf8EncodeChar)
    = cs.map fun c => (true, String.utf8EncodeChar c) := by
  induction cs with
  | nil => rw [List.flatMap_nil, pieces, List.map_nil]
  | cons c cs ih => rw [List.flatMap_cons, pieces_utf8, ih, List.map_cons]

theorem decodeLossy_ofText (s : String) : decodeLossy (Bytes.ofText s) = s := by
  have hchar : ∀ c : Char, Bytes.text? (String.utf8EncodeChar c) = some (String.ofList [c]) :=
    fun c => by simpa using Bytes.text?_utf8 [c]
  rw [← String.toList_inj, Bytes.ofText_eq_flatMap, decodeLossy, pieces_flatMap,
    String.toList_join]
  simp [List.flatMap_map, hchar]

end Utf8
end TenantGate
