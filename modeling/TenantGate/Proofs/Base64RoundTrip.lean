import TenantGate.Proofs.Results
import TenantGate.Text.Base64
/-!
# Reading what was written in Base64

The text of bytes has symbols of its alphabet only, and it is read back as the bytes.
-/

namespace TenantGate
namespace Base64

theorem value?_symbol (a : Alphabet) {n : Nat} (h : n < 64) : value? a (symbol a n) = some n := by
  have all : ∀ n < 64, value? a (symbol a n) = some n := by
    cases a <;> decide
  exact all n h

theorem symbol_ne_pad (a : Alphabet) {n : Nat} (h : n < 64) : symbol a n ≠ pad := by
  have all : ∀ n < 64, symbol a n ≠ pad := by
    cases a <;> decide
  exact all n h

def sextets : Bytes → List Nat
  | x :: y :: z :: s =>
    x.toNat / 4 :: (x.toNat % 4 * 16 + y.toNat / 16) :: (y.toNat % 16 * 4 + z.toNat / 64)
      :: z.toNat % 64 :: sextets s
  | [x, y] => [x.toNat / 4, x.toNat % 4 * 16 + y.toNat / 16, y.toNat % 16 * 4]
  | [x] => [x.toNat / 4, x.toNat % 4 * 16]
  | [] => []

theorem encodeUnpadded_eq (a : Alphabet) (s : Bytes) :
    encodeUnpadded a s = (sextets s).map (symbol a) := by
  fun_induction encodeUnpadded a s with
  | case1 x y z s ih => simp [sextets, ih]
  | case2 x y => rfl
  | case3 x => rfl
  | case4 => rfl

theorem lt_of_mem_sextets (s : Bytes) : ∀ n ∈ sextets s, n < 64 := by
  fun_induction sextets s with
  | case1 x y z s ih =>
    have hx := x.toNat_lt
    have hy := y.toNat_lt
    have hz := z.toNat_lt
    simp only [List.forall_mem_cons]
    exact ⟨by omega, by omega, by omega, by omega, ih⟩
  | case2 x y =>
    have hx := x.toNat_lt
    have hy := y.toNat_lt
    simp only [List.forall_mem_cons]
    exact ⟨by omega, by omega, by omega, by simp⟩
  | case3 x =>
    have hx := x.toNat_lt
    simp only [List.forall_mem_cons]
    exact ⟨by omega, by omega, by simp⟩
  | case4 => simp

theorem values_symbols (a : Alphabet) (offset : Nat) {l : List Nat} (h : ∀ n ∈ l, n < 64) :
    values a offset (l.map (symbol a)) = .ok l := by
  induction l generalizing offset with
  | nil => rfl
  | cons n l ih =>
    have hn := value?_symbol a (h n List.mem_cons_self)
    have hl := ih (offset + 1) fun m hm => h m (List.mem_cons_of_mem n hm)
    simp [values, hn, hl, Except.map]

theorem decodeLast_symbols (a : Alphabet) (offset : Nat) {l : List Nat} (h : ∀ n ∈ l, n < 64) :
    decodeLast a offset (l.map (symbol a)) = lastBytes offset (l.map (symbol a)) l := by
  have hpad : ∀ b ∈ l.map (symbol a), (b != pad) = true := by
    intro b hb
    obtain ⟨n, hn, rfl⟩ := List.mem_map.1 hb
    simpa using symbol_ne_pad a (h n hn)
  have htake : (l.map (symbol a) ++ []).takeWhile (· != pad) = _ :=
    List.takeWhile_append_of_pos hpad
  have hdrop : (l.map (symbol a) ++ []).dropWhile (· != pad) = _ :=
    List.dropWhile_append_of_pos hpad
  simp only [List.append_nil, List.takeWhile_nil, List.dropWhile_nil] at htake hdrop
  simp only [decodeLast, htake, hdrop, values_symbols a offset h, bind, Except.bind]
  rfl

theorem threeBytes_sextets (x y z : UInt8) :
    threeBytes (x.toNat / 4) (x.toNat % 4 * 16 + y.toNat / 16) (y.toNat % 16 * 4 + z.toNat / 64)
      (z.toNat % 64) = [x, y, z] := by
  have hx := x.toNat_lt
  have hy := y.toNat_lt
  have hz := z.toNat_lt
  simp only [threeBytes, List.cons.injEq, and_true]
  refine ⟨?_, ?_, ?_⟩ <;>
    (apply UInt8.toNat_inj.1
     rw [UInt8.toNat_ofNat']
     omega)

/-- All groups before the last one are read one by one. -/
theorem decodeGroups_sextets (a : Alphabet) (offset : Nat) (s : Bytes) :
    decodeGroups a offset ((sextets s).map (symbol a)) = .ok s := by
  fun_induction sextets s generalizing offset with
  | case1 x y z s ih =>
    have hlt := lt_of_mem_sextets (x :: y :: z :: s)
    rw [sextets] at hlt
    cases hs : sextets s with
    | nil =>
      obtain rfl : s = [] := by
        match s with
        | [] => rfl
        | [_] | [_, _] | _ :: _ :: _ :: _ => simp [sextets] at hs
      rw [hs] at hlt
      simp only [List.map_cons, List.map_nil, decodeGroups]
      exact (decodeLast_symbols a offset hlt).trans (congrArg Except.ok (threeBytes_sextets x y z))
    | cons n ns =>
      have hrest := ih (offset + 4)
      have hgroup := values_symbols a offset (l := [x.toNat / 4, x.toNat % 4 * 16 + y.toNat / 16,
        y.toNat % 16 * 4 + z.toNat / 64, z.toNat % 64])
        fun n hn => hlt n (List.mem_append_left (sextets s) hn)
      rw [hs] at hrest
      simp only [List.map_cons, List.map_nil] at hrest hgroup ⊢
      simp only [decodeGroups, hgroup, hrest, bind, Except.bind, pure, Except.pure,
        threeBytes_sextets, List.cons_append, List.nil_append]
  | case2 x y =>
    have hx := x.toNat_lt
    have hy := y.toNat_lt
    have hlast := decodeLast_symbols a offset (lt_of_mem_sextets [x, y])
    simp only [sextets, List.map_cons, List.map_nil] at hlast ⊢
    rw [decodeGroups, hlast, lastBytes, if_pos (by omega)]
    · simp only [Except.ok.injEq, List.cons.injEq, and_true]
      refine ⟨?_, ?_⟩ <;>
        (apply UInt8.toNat_inj.1
         rw [UInt8.toNat_ofNat']
         omega)
    · simp
  | case3 x =>
    have hx := x.toNat_lt
    have hlast := decodeLast_symbols a offset (lt_of_mem_sextets [x])
    simp only [sextets, List.map_cons, List.map_nil] at hlast ⊢
    rw [decodeGroups, hlast, lastBytes, if_pos (by omega)]
    · simp only [Except.ok.injEq, List.cons.injEq, and_true]
      apply UInt8.toNat_inj.1
      rw [UInt8.toNat_ofNat']
      omega
    · simp
  | case4 => rfl

/-- A length that no bytes have is not found. -/
theorem length_sextets_mod (s : Bytes) : (sextets s).length % 4 ≠ 1 := by
  fun_induction sextets s with
  | case1 x y z s ih =>
    simp only [List.length_cons]
    omega
  | case2 x y => simp
  | case3 x => simp
  | case4 => simp

theorem decodeUnpadded_encodeUnpadded (a : Alphabet) (s : Bytes) :
    decodeUnpadded a (encodeUnpadded a s) = .ok s := by
  have hlength : ((encodeUnpadded a s).length % 4 == 1) = false := by
    rw [encodeUnpadded_eq, List.length_map]
    simpa using length_sextets_mod s
  rw [decodeUnpadded, hlength, encodeUnpadded_eq, decodeGroups_sextets]

theorem not_mem_encodeUnpadded {a : Alphabet} {b : UInt8} (hb : value? a b = none) (s : Bytes) :
    b ∉ encodeUnpadded a s := by
  rw [encodeUnpadded_eq]
  intro h
  obtain ⟨n, hn, rfl⟩ := List.mem_map.1 h
  rw [value?_symbol a (lt_of_mem_sextets s n hn)] at hb
  simp at hb

theorem value?_of_values {a : Alphabet} {offset : Nat} {s : Bytes} {l : List Nat}
    (h : values a offset s = .ok l) : ∀ b ∈ s, (value? a b).isSome = true := by
  induction s generalizing offset l with
  | nil => simp
  | cons c s ih =>
    simp only [values] at h
    split at h
    · simp at h
    · next n hn =>
      obtain ⟨l', hl, _⟩ := Result.map_eq_ok.1 h
      intro b hb
      rcases List.mem_cons.1 hb with rfl | hb
      · simp [hn]
      · exact ih hl b hb

theorem value?_of_decodeLast {a : Alphabet} {offset : Nat} {s r : Bytes}
    (h : decodeLast a offset s = .ok r) : ∀ b ∈ s, (value? a b).isSome = true := by
  have hsplit := List.takeWhile_append_dropWhile (p := (· != pad)) (l := s)
  simp only [decodeLast] at h
  obtain ⟨l, hl, h⟩ := Result.bind_eq_ok.1 h
  split at h
  · next hempty =>
    rw [List.isEmpty_iff.1 hempty, List.append_nil] at hsplit
    rw [hsplit] at hl
    exact value?_of_values hl
  · split at h <;> simp at h

theorem value?_of_decodeGroups {a : Alphabet} {offset : Nat} {s r : Bytes}
    (h : decodeGroups a offset s = .ok r) : ∀ b ∈ s, (value? a b).isSome = true := by
  fun_induction decodeGroups a offset s generalizing r with
  | case1 offset p q r' s' t rest ih =>
    obtain ⟨l, hl, h⟩ := Result.bind_eq_ok.1 h
    split at h
    · obtain ⟨others, hothers, _⟩ := Result.bind_eq_ok.1 h
      intro b hb
      have hparts : b ∈ [p, q, r', s'] ∨ b ∈ t :: rest := List.mem_append.1 hb
      rcases hparts with hb | hb
      · exact value?_of_values hl b hb
      · exact ih hothers b hb
    · simp at h
  | case2 => exact value?_of_decodeLast h

theorem value?_of_decodeUnpadded {a : Alphabet} {s r : Bytes} (h : decodeUnpadded a s = .ok r) :
    ∀ b ∈ s, (value? a b).isSome = true := by
  unfold decodeUnpadded at h
  split at h
  · split at h
    · simp at h
    · exact value?_of_decodeGroups h
  · exact value?_of_decodeGroups h

end Base64
end TenantGate
