import TenantGate.Snappy
/-!
# Compressed blocks are read back

A block that is written holds its content: the length in front is read back, and so is one literal
after another.
-/

namespace TenantGate

theorem Protobuf.varint_of_lt {n : Nat} (h : n < 128) : varint n = [UInt8.ofNat n] := by
  rw [varint, if_pos h]

theorem Protobuf.varint_of_le {n : Nat} (h : 128 ≤ n) :
    varint n = UInt8.ofNat (n % 128 + 128) :: varint (n / 128) := by
  rw [varint, if_neg (by omega)]

namespace Snappy

theorem readLength?_varint {width n : Nat} (h : n < Nat.pow 128 (width + 1)) (rest : Bytes) :
    readLength? (width + 1) (Protobuf.varint n ++ rest) = some (n, rest) := by
  change n < 128 ^ (width + 1) at h
  induction width generalizing n with
  | zero =>
    have hn : n < 128 := by simpa using h
    have byte : (UInt8.ofNat n).toNat = n := by
      rw [UInt8.toNat_ofNat']
      omega
    rw [Protobuf.varint_of_lt hn]
    simp [readLength?, byte, hn]
  | succ width ih =>
    by_cases hn : n < 128
    · have byte : (UInt8.ofNat n).toNat = n := by
        rw [UInt8.toNat_ofNat']
        omega
      rw [Protobuf.varint_of_lt hn]
      simp [readLength?, byte, hn]
    · have byte : (UInt8.ofNat (n % 128 + 128)).toNat = n % 128 + 128 := by
        rw [UInt8.toNat_ofNat']
        omega
      have upper : n / 128 < 128 ^ (width + 1) := by
        rw [Nat.div_lt_iff_lt_mul (by decide), ← Nat.pow_succ]
        exact h
      rw [Protobuf.varint_of_le (by omega), List.cons_append, readLength?, byte,
        if_neg (by omega), ih upper]
      simp only [Option.map_some, Option.some.injEq, Prod.mk.injEq, and_true]
      omega

theorem takeLiteral?_append (width : Nat) {b : Bytes} (hb : b ≠ []) (h : b.length ≤ Nat.pow 256 width)
    (rest : Bytes) :
    takeLiteral? width (Bytes.ofLittleEndian width (b.length - 1) ++ (b ++ rest))
      = some (b, rest) := by
  change b.length ≤ 256 ^ width at h
  have hpos : 0 < b.length := List.length_pos_iff.2 hb
  have length : (Bytes.ofLittleEndian width (b.length - 1)).length = width :=
    Bytes.length_ofLittleEndian _ _
  have value : Bytes.littleEndian (Bytes.ofLittleEndian width (b.length - 1)) + 1 = b.length := by
    rw [Bytes.littleEndian_ofLittleEndian, Nat.mod_eq_of_lt]
    · omega
    · exact Nat.lt_of_lt_of_le (by omega) h
  simp only [takeLiteral?, List.take_left' length, List.drop_left' length, value]
  simp [length]

theorem elements?_literal {b : Bytes} (hb : b ≠ []) (h : b.length ≤ 65536) (fuel : Nat)
    (out rest : Bytes) :
    elements? (fuel + 1) out (literal b ++ rest) = elements? fuel (b.reverse ++ out) rest := by
  have hpos : 0 < b.length := List.length_pos_iff.2 hb
  unfold literal
  dsimp only
  split
  · next hshort =>
    have tag : (b.length - 1) * 4 % 256 / 4 = b.length - 1 := by omega
    have length : b.length - 1 + 1 = b.length := by omega
    have enough : ¬b.length + rest.length < b.length := by omega
    simp [elements?, tag, hshort, length, enough]
  · split
    · next hmiddle =>
      have taken := takeLiteral?_append 1 hb (by change _ ≤ 256; omega) rest
      have head : Bytes.ofLittleEndian 1 (b.length - 1) = [UInt8.ofNat (b.length - 1)] := rfl
      rw [head, List.singleton_append] at taken
      simp [elements?, taken]
    · have taken := takeLiteral?_append 2 hb h rest
      simp [elements?, taken]

theorem literal_ne_nil (b : Bytes) : literal b ≠ [] := by
  unfold literal
  dsimp only
  repeat' split
  all_goals simp

/-- The literals of a content give that content; there is fuel for them if there is some for each of
their bytes. -/
theorem elements?_literals {pieces fuel : Nat} {b : Bytes} (hpieces : b.length ≤ pieces * 65536)
    (hfuel : (literals pieces b).length ≤ fuel) (out : Bytes) :
    elements? fuel out (literals pieces b) = some (out.reverse ++ b) := by
  induction pieces generalizing b fuel out with
  | zero =>
    obtain rfl : b = [] := List.length_eq_zero_iff.1 (by omega)
    simp [literals, elements?]
  | succ pieces ih =>
    by_cases hb : b = []
    · subst hb
      simp [literals, elements?]
    · have unfolded : literals (pieces + 1) b
          = literal (b.take 65536) ++ literals pieces (b.drop 65536) := by
        simp [literals, hb]
      have hfirst : 0 < (literal (b.take 65536)).length :=
        List.length_pos_iff.2 (literal_ne_nil _)
      rw [unfolded, List.length_append] at hfuel
      obtain ⟨fuel, rfl⟩ : ∃ less, fuel = less + 1 := ⟨fuel - 1, by omega⟩
      have htake : b.take 65536 ≠ [] := by simpa using hb
      have hlength : (b.take 65536).length ≤ 65536 := List.length_take_le _ _
      have hrest : (b.drop 65536).length ≤ pieces * 65536 := by
        rw [List.length_drop]
        omega
      rw [unfolded, elements?_literal htake hlength, ih hrest (by omega)]
      simp [List.take_append_drop]

/-- What is compressed is decompressed to the same content. -/
theorem decode?_encode? {b c : Bytes} (h : encode? b = some c) : decode? c = some b := by
  unfold encode? at h
  split at h
  · next hroom =>
    obtain rfl := Option.some.inj h
    simp only [roomFor, maxLength] at hroom
    have few : b.length < Nat.pow 128 (4 + 1) := by
      change _ < 34359738368
      omega
    have length := readLength?_varint few (literals (b.length / 65536 + 1) b)
    have enough : b.length ≤ (b.length / 65536 + 1) * 65536 := by omega
    have content := elements?_literals enough (Nat.le_refl _) []
    simp [decode?, length, content]
  · cases h

end Snappy
end TenantGate
