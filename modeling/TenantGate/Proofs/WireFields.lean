import TenantGate.Proofs.SnappyRoundTrip
/-!
# Fields of a message

A message is a list of fields.  The key of a field tells its number and the type of its payload, so
that fields can be told apart whether or not they are known.
-/

namespace TenantGate
namespace Protobuf

inductive Payload
  | varint (n : Nat)
  | fixed64 (b : Bytes)
  | delimited (b : Bytes)
  | fixed32 (b : Bytes)
  deriving DecidableEq, Repr

structure Field where
  number : Nat
  payload : Payload
  deriving DecidableEq, Repr

def readVarint? (s : Bytes) : Option (Nat × Bytes) :=
  (Snappy.readLength? 10 s).filter (·.1 < 0x10000000000000000)

def take? (n : Nat) (s : Bytes) : Option (Bytes × Bytes) :=
  if s.length < n then none else some (s.take n, s.drop n)

def readPayload? (code : Nat) (s : Bytes) : Option (Payload × Bytes) :=
  match code with
  | 0 => (readVarint? s).map fun p => (.varint p.1, p.2)
  | 1 => (take? 8 s).map fun p => (.fixed64 p.1, p.2)
  | 2 => (readVarint? s).bind fun p => (take? p.1 p.2).map fun q => (.delimited q.1, q.2)
  | 5 => (take? 4 s).map fun p => (.fixed32 p.1, p.2)
  | _ => none

/-- A field after its key, which holds the number and the type; no field has the number zero. -/
def readField? (s : Bytes) : Option (Field × Bytes) := do
  let (key, s) ← readVarint? s
  if key < 8 ∨ 0x100000000 ≤ key then none
  let (payload, s) ← readPayload? (key % 8) s
  return (⟨key / 8, payload⟩, s)

/-- All fields; each takes one byte at least, which bounds their number by `fuel`. -/
def fields? : (fuel : Nat) → Bytes → Option (List Field)
  | _, [] => some []
  | 0, _ => none
  | fuel + 1, s => (readField? s).bind fun p => (fields? fuel p.2).map (p.1 :: ·)

def Payload.code : Payload → Nat
  | .varint _ => 0
  | .fixed64 _ => 1
  | .delimited _ => 2
  | .fixed32 _ => 5

def Payload.bytes : Payload → Bytes
  | .varint n => Protobuf.varint n
  | .fixed64 b => b
  | .delimited b => Protobuf.varint b.length ++ b
  | .fixed32 b => b

def Field.bytes (f : Field) : Bytes := varint (f.number * 8 + f.payload.code) ++ f.payload.bytes

/-- The payload has the size that its type asks for. -/
def Payload.IsSound : Payload → Prop
  | .varint n => n < 0x10000000000000000
  | .fixed64 b => b.length = 8
  | .delimited b => b.length < 0x10000000000000000
  | .fixed32 b => b.length = 4

structure Field.IsSound (f : Field) : Prop where
  positive : 1 ≤ f.number
  small : f.number < 0x20000000
  payload : f.payload.IsSound

/-- A field as the messages here have them.  It is sound unless it is too long. -/
def Field.IsKnown (f : Field) : Prop :=
  (f.number = 1 ∨ f.number = 2) ∧ ((∃ b, f.payload = .delimited b) ∨ f.payload.IsSound)

theorem readVarint?_varint {n : Nat} (h : n < 0x10000000000000000) (rest : Bytes) :
    readVarint? (varint n ++ rest) = some (n, rest) := by
  have few : n < Nat.pow 128 (9 + 1) := Nat.lt_of_lt_of_le h (by decide)
  rw [readVarint?, Snappy.readLength?_varint few, Option.filter_some, if_pos (by simpa using h)]

theorem varint_ne_nil (n : Nat) : varint n ≠ [] := by
  by_cases h : n < 128
  · rw [varint_of_lt h]
    exact List.cons_ne_nil _ _
  · rw [varint_of_le (by omega)]
    exact List.cons_ne_nil _ _

theorem take?_append (b rest : Bytes) : take? b.length (b ++ rest) = some (b, rest) := by
  rw [take?, if_neg (by simp), List.take_left, List.drop_left]

theorem readPayload?_bytes {p : Payload} (h : p.IsSound) (rest : Bytes) :
    readPayload? p.code (p.bytes ++ rest) = some (p, rest) := by
  cases p with
  | varint n => simp only [Payload.code, Payload.bytes, readPayload?, readVarint?_varint h,
      Option.map_some]
  | fixed64 b =>
    have taken := take?_append b rest
    rw [show b.length = 8 from h] at taken
    simp only [Payload.code, Payload.bytes, readPayload?, taken, Option.map_some]
  | delimited b =>
    simp only [Payload.code, Payload.bytes, readPayload?, List.append_assoc,
      readVarint?_varint h, Option.bind_some, take?_append, Option.map_some]
  | fixed32 b =>
    have taken := take?_append b rest
    rw [show b.length = 4 from h] at taken
    simp only [Payload.code, Payload.bytes, readPayload?, taken, Option.map_some]

theorem Payload.code_lt (p : Payload) : p.code < 8 := by cases p <;> simp [code]

theorem readField?_bytes {f : Field} (h : f.IsSound) (rest : Bytes) :
    readField? (f.bytes ++ rest) = some (f, rest) := by
  obtain ⟨hpositive, hsmall, hpayload⟩ := h
  have hcode := f.payload.code_lt
  have key : readVarint? (f.bytes ++ rest)
      = some (f.number * 8 + f.payload.code, f.payload.bytes ++ rest) := by
    rw [Field.bytes, List.append_assoc, readVarint?_varint (by omega)]
  have number : (f.number * 8 + f.payload.code) / 8 = f.number := by omega
  have type : (f.number * 8 + f.payload.code) % 8 = f.payload.code := by omega
  have legal : ¬(f.number * 8 + f.payload.code < 8 ∨
      0x100000000 ≤ f.number * 8 + f.payload.code) := by
    omega
  simp [readField?, key, number, type, legal, readPayload?_bytes hpayload]

theorem Field.bytes_ne_nil (f : Field) : f.bytes ≠ [] := by
  simp [bytes, varint_ne_nil]

theorem fields?_append {f : Field} {b rest : Bytes} (hb : b ≠ [])
    (h : readField? (b ++ rest) = some (f, rest)) (fuel : Nat) :
    fields? (fuel + 1) (b ++ rest) = (fields? fuel rest).map (f :: ·) := by
  obtain ⟨x, s, rfl⟩ := List.exists_cons_of_ne_nil hb
  rw [List.cons_append] at h ⊢
  rw [fields?, h, Option.bind_some]
  exact nofun

/-- Written fields are read one by one. -/
theorem fields?_flatMap {fields : List Field} (h : ∀ f ∈ fields, f.IsSound) {fuel : Nat}
    (hfuel : (fields.flatMap Field.bytes).length ≤ fuel) :
    fields? fuel (fields.flatMap Field.bytes) = some fields := by
  induction fields generalizing fuel with
  | nil => simp [fields?]
  | cons f fields ih =>
    rw [List.forall_mem_cons] at h
    have hfirst : 0 < f.bytes.length := List.length_pos_iff.2 f.bytes_ne_nil
    rw [List.flatMap_cons, List.length_append] at hfuel
    obtain ⟨fuel, rfl⟩ : ∃ less, fuel = less + 1 := ⟨fuel - 1, by omega⟩
    rw [List.flatMap_cons, fields?_append f.bytes_ne_nil (readField?_bytes h.1 _),
      ih h.2 (by omega), Option.map_some]

end Protobuf
end TenantGate
