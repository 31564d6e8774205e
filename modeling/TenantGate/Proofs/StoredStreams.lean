import Mathlib.Tactic.Ring
import TenantGate.Deflate.Zlib
import TenantGate.Proofs.Results
/-!
# Streams that store their document

A document may be cut into blocks of at most 65535 bytes and stored as it is.  Whatever the cuts, the
unused bits in front of a block and the head of the stream are, reading the stream gives the
document back.
-/

namespace TenantGate

theorem Bytes.bigEndian_ofBigEndian (width n : Nat) :
    bigEndian (ofBigEndian width n) = n % 256 ^ width := by
  induction width generalizing n with
  | zero => simp [ofBigEndian, bigEndian, Nat.mod_one]
  | succ width ih =>
    have append (b : Bytes) (x : UInt8) : bigEndian (b ++ [x]) = bigEndian b * 256 + x.toNat := by
      simp [bigEndian]
    have byte : (UInt8.ofNat n).toNat = n % 256 := UInt8.toNat_ofNat'
    rw [ofBigEndian, append, ih, byte, Nat.pow_succ', Nat.mod_mul, Nat.add_comm, Nat.mul_comm]

namespace Deflate

theorem Bits.next_of_byte (x : UInt8) (s : Bytes) :
    next ⟨[], x :: s⟩ = .ok (x.toNat.testBit 0, ⟨(ofByte x).drop 1, s⟩) := rfl

theorem Bits.take_kind (x : UInt8) (s : Bytes) :
    take 2 ⟨(ofByte x).drop 1, s⟩ = .ok (x.toNat / 2 % 4, ⟨(ofByte x).drop 3, s⟩) := by
  have bits : (x.toNat.testBit 1).toNat + 2 * ((x.toNat.testBit 2).toNat + 2 * 0)
      = x.toNat / 2 % 4 := by
    simp only [Nat.toNat_testBit]
    omega
  rw [← bits]
  rfl

/-- A block that stores bytes: three bits tell whether it is the last one and that it stores, five
bits are not used, and the number of bytes and its complement stand before the bytes. -/
inductive IsStored (last : Bool) (data : Bytes) : Bytes → Prop
  | mk {head : UInt8} (hhead : head.toNat % 8 = last.toNat) (hdata : data.length ≤ 65535) :
      IsStored last data (head :: (Bytes.ofLittleEndian 2 data.length
        ++ Bytes.ofLittleEndian 2 (65535 - data.length) ++ data))

theorem IsStored.length_pos {last : Bool} {data block : Bytes} (h : IsStored last data block) :
    0 < block.length := by
  cases h
  simp

theorem stored_of_counted {data : Bytes} (hdata : data.length ≤ 65535) (out : Output)
    (held : List Bool) (rest : Bytes) :
    stored out ⟨held, Bytes.ofLittleEndian 2 data.length
        ++ Bytes.ofLittleEndian 2 (65535 - data.length) ++ data ++ rest⟩
      = .ok (out ++ data.toArray, ⟨[], rest⟩) := by
  have count (n : Nat) (hn : n ≤ 65535) :
      ∃ a b, Bytes.ofLittleEndian 2 n = [a, b] ∧ Bytes.littleEndian [a, b] = n := by
    refine ⟨_, _, rfl, ?_⟩
    exact (Bytes.littleEndian_ofLittleEndian 2 n).trans (Nat.mod_eq_of_lt (Nat.lt_succ_of_le hn))
  obtain ⟨a, b, hab, length⟩ := count data.length hdata
  obtain ⟨c, d, hcd, complement⟩ := count (65535 - data.length) (Nat.sub_le _ _)
  have whole : data.length + (65535 - data.length) = 65535 := by omega
  rw [hab, hcd]
  simp [stored, Bits.align, length, complement, whole]

/-- A stored block adds its bytes, whatever was written before and whatever stands after it. -/
theorem blocks_of_isStored {last : Bool} {data block : Bytes} (h : IsStored last data block)
    (fuel : Nat) (out : Output) (rest : Bytes) :
    blocks (fuel + 1) out ⟨[], block ++ rest⟩
      = if last then .ok (out ++ data.toArray, rest)
        else blocks fuel (out ++ data.toArray) ⟨[], rest⟩ := by
  obtain @⟨head, hhead, hdata⟩ := h
  have small : last.toNat ≤ 1 := last.toNat_le
  have hlast : head.toNat.testBit 0 = last := by
    have odd : head.toNat % 2 = last.toNat := by omega
    rw [Nat.testBit_zero, odd]
    cases last <;> rfl
  have hkind : head.toNat / 2 % 4 = 0 := by omega
  rw [List.cons_append, blocks, Bits.next_of_byte]
  simp only [Result.ok_bind, Bits.take_kind, hkind, hlast, Deflate.block,
    stored_of_counted hdata]
  rfl

/-- Blocks that store a document piece by piece. -/
inductive Stores : (blocks : Bytes) → (doc : Bytes) → Prop
  | last {block data : Bytes} (hblock : IsStored true data block) : Stores block data
  | more {block data rest doc : Bytes} (hblock : IsStored false data block)
      (hrest : Stores rest doc) : Stores (block ++ rest) (data ++ doc)

theorem blocks_of_stores {z doc : Bytes} (h : Stores z doc) {fuel : Nat} (hfuel : z.length ≤ fuel)
    (out : Output) (rest : Bytes) :
    blocks fuel out ⟨[], z ++ rest⟩ = .ok (out ++ doc.toArray, rest) := by
  induction h generalizing fuel out with
  | last hblock =>
    have := hblock.length_pos
    obtain ⟨fuel, rfl⟩ : ∃ less, fuel = less + 1 := ⟨fuel - 1, by omega⟩
    rw [blocks_of_isStored hblock, if_pos rfl]
  | more hblock _ ih =>
    have := hblock.length_pos
    rw [List.length_append] at hfuel
    obtain ⟨fuel, rfl⟩ : ∃ less, fuel = less + 1 := ⟨fuel - 1, by omega⟩
    rw [List.append_assoc, blocks_of_isStored hblock, if_neg Bool.false_ne_true, ih (by omega)]
    simp

end Deflate

namespace Zlib

open Deflate

/-- The sum of the bytes, each counted once for itself and once for every byte after it. -/
def weightedSum : Bytes → Nat
  | [] => 0
  | b :: d => (d.length + 1) * b.toNat + weightedSum d

/-- The Adler-32 checksum of a document.  Its lower half is one more than the sum of the bytes, its
upper half the sum of what the lower half is after each byte. -/
def adler (d : Bytes) : Nat :=
  (d.length + weightedSum d) % checksumBase * 65536 + (1 + (d.map UInt8.toNat).sum) % checksumBase

theorem adler_lt (d : Bytes) : adler d < 256 ^ 4 := by
  have low := Nat.mod_lt (1 + (d.map UInt8.toNat).sum) (show 0 < checksumBase by decide)
  have high := Nat.mod_lt (d.length + weightedSum d) (show 0 < checksumBase by decide)
  unfold adler
  unfold checksumBase at *
  omega

theorem foldl_checksumStep (low high : Nat) (d : Bytes) :
    d.foldl checksumStep (low % checksumBase, high % checksumBase)
      = ((low + (d.map UInt8.toNat).sum) % checksumBase,
        (high + d.length * low + weightedSum d) % checksumBase) := by
  induction d generalizing low high with
  | nil => simp [weightedSum]
  | cons b d ih =>
    have step : checksumStep (low % checksumBase, high % checksumBase) b
        = ((low + b.toNat) % checksumBase, (high + (low + b.toNat)) % checksumBase) := by
      simp only [checksumStep, Nat.mod_add_mod, Nat.add_mod_mod]
    have upper : high + (low + b.toNat) + d.length * (low + b.toNat) + weightedSum d
        = high + (b :: d).length * low + weightedSum (b :: d) := by
      rw [List.length_cons, weightedSum]
      ring
    rw [List.foldl_cons, step, ih, upper, List.map_cons, List.sum_cons, Nat.add_assoc]

theorem checksum_eq_adler (d : Bytes) : checksum d = adler d := by
  have sums : d.foldl checksumStep (1, 0) = _ := foldl_checksumStep 1 0 d
  rw [Nat.zero_add, Nat.mul_one] at sums
  simp only [checksum, sums, adler]

/-- The head of a stream.  The level of compression, which is told in the two highest bits of the
second byte, is left open. -/
structure Heads (a b : UInt8) : Prop where
  deflated : a.toNat % 16 = 8
  window : a.toNat / 16 ≤ 7
  noDictionary : b.toNat / 32 % 2 = 0
  check : 31 ∣ a.toNat * 256 + b.toNat

theorem Heads.isHead {a b : UInt8} (h : Heads a b) : isHead a b = true := by
  have noDictionary : b.toNat.testBit 5 = false := by
    rw [Nat.testBit_eq_decide_div_mod_eq, h.noDictionary]
    rfl
  simp [Zlib.isHead, Nat.mod_eq_zero_of_dvd h.check, h.deflated, h.window, noDictionary]

/-- A stream that stores a document: a head, the blocks, and the checksum of the document. -/
inductive IsStoredStream (doc : Bytes) : Bytes → Prop
  | mk {a b : UInt8} {body : Bytes} (hhead : Heads a b) (hbody : Stores body doc) :
      IsStoredStream doc (a :: b :: (body ++ Bytes.ofBigEndian 4 (adler doc)))

theorem decode_of_isStoredStream {doc z : Bytes} (h : IsStoredStream doc z) :
    decode z = .ok doc := by
  obtain @⟨a, b, body, hhead, hbody⟩ := h
  have enough : body.length ≤ 8 * (body ++ Bytes.ofBigEndian 4 (adler doc)).length + 1 := by
    rw [List.length_append]
    omega
  have read := blocks_of_stores hbody enough #[] (Bytes.ofBigEndian 4 (adler doc))
  have width : (Bytes.ofBigEndian 4 (adler doc)).length = 4 := rfl
  have value : Bytes.bigEndian (Bytes.ofBigEndian 4 (adler doc)) = adler doc := by
    rw [Bytes.bigEndian_ofBigEndian, Nat.mod_eq_of_lt (adler_lt doc)]
  have whole : (Bytes.ofBigEndian 4 (adler doc)).take 4 = Bytes.ofBigEndian 4 (adler doc) :=
    List.take_of_length_le width.le
  have output : (#[] ++ doc.toArray : Output).toList = doc := by simp
  simp only [decode, hhead.isHead, read, Result.ok_bind, width, whole, value, output, checksum_eq_adler,
    if_pos]
  rfl

theorem isStored_storedBlock (last : Bool) {data : Bytes} (hdata : data.length ≤ 65535) :
    IsStored last data (storedBlock last data) := by
  have head : (if last then 1 else 0 : UInt8).toNat % 8 = last.toNat := by cases last <;> rfl
  exact .mk head hdata

/-- Any pieces of a document that are short enough can be stored, one block each. -/
theorem stores_storedBlocks {pieces : List Bytes} (h : ∀ data ∈ pieces, data.length ≤ 65535) :
    Stores (storedBlocks pieces) pieces.flatten := by
  induction pieces with
  | nil => exact .last (isStored_storedBlock true (Nat.zero_le _))
  | cons data rest ih =>
    obtain ⟨hdata, hrest⟩ := List.forall_mem_cons.1 h
    cases rest with
    | nil =>
      rw [List.flatten_cons, List.flatten_nil, List.append_nil]
      exact .last (isStored_storedBlock true hdata)
    | cons next rest => exact .more (isStored_storedBlock false hdata) (ih hrest)

def storedStream (pieces : List Bytes) : Bytes :=
  0x78 :: 0x01 :: (storedBlocks pieces ++ Bytes.ofBigEndian 4 (checksum pieces.flatten))

theorem isStoredStream_storedStream {pieces : List Bytes}
    (h : ∀ data ∈ pieces, data.length ≤ 65535) :
    IsStoredStream pieces.flatten (storedStream pieces) := by
  have head : Heads 0x78 0x01 := ⟨by decide, by decide, by decide, by decide⟩
  rw [storedStream, checksum_eq_adler]
  exact .mk head (stores_storedBlocks h)

end Zlib
end TenantGate
