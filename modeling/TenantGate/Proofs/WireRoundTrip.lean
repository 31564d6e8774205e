import TenantGate.Proofs.WireFields
/-!
# Write requests are read back

The fields of a message may come in any order.  The last one of a number counts, or all of them if
they repeat; one that is missing has its default, and unknown ones are passed over.  A written
request that is read in this way gives back its series, and only zeros have lost their signs.
-/

namespace TenantGate
namespace Protobuf

def repeated? {α : Type} (number : Nat) (item : Payload → Option α) (fields : List Field) :
    Option (List α) :=
  (fields.filter (·.number == number)).mapM fun f => item f.payload

def single? {α : Type} (number : Nat) (item : Payload → Option α) (default : α)
    (fields : List Field) : Option α :=
  (repeated? number item fields).map fun xs => xs.getLast?.getD default

def textOf? : Payload → Option String
  | .delimited b => Bytes.text? b
  | _ => none

def doubleOf? : Payload → Option Binary64
  | .fixed64 b => some ⟨UInt64.ofNat (Bytes.littleEndian b)⟩
  | _ => none

/-- The upper half of the residues are the negative integers. -/
def int64Of? : Payload → Option Int
  | .varint n => some (if n < 0x8000000000000000 then n else n - 0x10000000000000000)
  | _ => none

def readMessage? {α : Type} (read : List Field → Option α) (b : Bytes) : Option α :=
  (fields? b.length b).bind read

def messageOf? {α : Type} (read : List Field → Option α) : Payload → Option α
  | .delimited b => readMessage? read b
  | _ => none

def labelOf? : Payload → Option Label := messageOf? fun fields => do
  return ⟨← single? 1 textOf? "" fields, ← single? 2 textOf? "" fields⟩

def sampleOf? : Payload → Option Sample := messageOf? fun fields => do
  let value ← single? 1 doubleOf? .zero fields
  return ⟨← single? 2 int64Of? 0 fields, value⟩

def timeSeriesOf? : Payload → Option TimeSeries := messageOf? fun fields => do
  return ⟨← repeated? 1 labelOf? fields, ← repeated? 2 sampleOf? fields⟩

def readRequest? : Bytes → Option (List TimeSeries) := readMessage? (repeated? 1 timeSeriesOf?)

def optionalField (number : Nat) (p : Payload) (isDefault : Bool) : List Field :=
  if isDefault then [] else [⟨number, p⟩]

def textPayload (s : String) : Payload := .delimited (.ofText s)

def doublePayload (x : Binary64) : Payload := .fixed64 (.ofLittleEndian 8 x.bits.toNat)

def int64Payload (n : Int) : Payload := .varint (n % 0x10000000000000000).toNat

def labelFields (l : Label) : List Field :=
  optionalField 1 (textPayload l.name) l.name.isEmpty
    ++ optionalField 2 (textPayload l.value) l.value.isEmpty

def sampleFields (s : Sample) : List Field :=
  optionalField 1 (doublePayload s.value) s.value.isZero
    ++ optionalField 2 (int64Payload s.timestamp) (s.timestamp == 0)

def timeSeriesFields (s : TimeSeries) : List Field :=
  (s.labels.map fun l => ⟨1, .delimited (label l)⟩)
    ++ s.samples.map fun x => ⟨2, .delimited (sample x)⟩

def requestFields (series : List TimeSeries) : List Field :=
  series.map fun s => ⟨1, .delimited (timeSeries s)⟩

theorem bytes_delimited (number : Nat) (b : Bytes) :
    Field.bytes ⟨number, .delimited b⟩ = delimited number b := by
  simp only [Field.bytes, Payload.bytes, Payload.code, delimited, key, WireType.code,
    List.append_assoc]

theorem flatMap_optionalField (number : Nat) (p : Payload) (isDefault : Bool) :
    (optionalField number p isDefault).flatMap Field.bytes
      = if isDefault then [] else Field.bytes ⟨number, p⟩ := by
  cases isDefault with
  | true => rfl
  | false => exact List.flatMap_singleton _ _

theorem flatMap_labelFields (l : Label) : (labelFields l).flatMap Field.bytes = label l := by
  simp only [labelFields, List.flatMap_append, flatMap_optionalField, textPayload,
    bytes_delimited, label, text]

theorem flatMap_sampleFields (s : Sample) : (sampleFields s).flatMap Field.bytes = sample s := by
  simp only [sampleFields, List.flatMap_append, flatMap_optionalField, beq_iff_eq, sample,
    double, int64]
  rfl

theorem flatMap_timeSeriesFields (s : TimeSeries) :
    (timeSeriesFields s).flatMap Field.bytes = timeSeries s := by
  simp only [timeSeriesFields, List.flatMap_append, List.flatMap_map, bytes_delimited, timeSeries]

theorem flatMap_requestFields (series : List TimeSeries) :
    (requestFields series).flatMap Field.bytes = writeRequest series := by
  simp only [requestFields, List.flatMap_map, bytes_delimited, writeRequest]

def lengthLimit : Nat := 0x10000000000000000

theorem length_le_of_mem {fields : List Field} {f : Field} (h : f ∈ fields) :
    f.bytes.length ≤ (fields.flatMap Field.bytes).length :=
  (List.sublist_flatten_of_mem (List.mem_map_of_mem h)).length_le

theorem length_le_of_delimited_mem {fields : List Field} {number : Nat} {b : Bytes}
    (h : ⟨number, .delimited b⟩ ∈ fields) : b.length ≤ (fields.flatMap Field.bytes).length := by
  refine Nat.le_trans ?_ (length_le_of_mem h)
  simp only [Field.bytes, Payload.bytes, List.length_append]
  omega

/-- A message is read field by field. -/
theorem readMessage?_flatMap {α : Type} {fields : List Field}
    (hlength : (fields.flatMap Field.bytes).length < lengthLimit)
    (hfields : ∀ f ∈ fields, f.IsKnown)
    (read : List Field → Option α) :
    readMessage? read (fields.flatMap Field.bytes) = read fields := by
  have sound : ∀ f ∈ fields, f.IsSound := by
    rintro ⟨number, payload⟩ hf
    obtain ⟨hnumber, hpayload⟩ := hfields _ hf
    refine ⟨by omega, by omega, ?_⟩
    rcases hpayload with ⟨b, rfl⟩ | hsound
    · exact Nat.lt_of_le_of_lt (length_le_of_delimited_mem hf) hlength
    · exact hsound
  rw [readMessage?, fields?_flatMap sound (Nat.le_refl _), Option.bind_some]

def Numbered (number : Nat) (fields : List Field) : Prop := ∀ f ∈ fields, f.number = number

theorem eq_of_mem_optionalField {number : Nat} {p : Payload} {isDefault : Bool} {f : Field}
    (h : f ∈ optionalField number p isDefault) : f = ⟨number, p⟩ := by
  cases isDefault with
  | true => cases h
  | false => exact List.mem_singleton.1 h

theorem numbered_optionalField (number : Nat) (p : Payload) (isDefault : Bool) :
    Numbered number (optionalField number p isDefault) :=
  fun _ hf => congrArg Field.number (eq_of_mem_optionalField hf)

section Repeated

variable {α β : Type} {number other : Nat} {item : Payload → Option α} {fields others : List Field}

theorem filter_eq_nil (h : Numbered other others) (hne : other ≠ number) :
    others.filter (·.number == number) = [] :=
  List.filter_eq_nil_iff.2 fun f hf => by simp [h f hf, hne]

theorem repeated?_append_left (h : Numbered other others) (hne : other ≠ number) :
    repeated? number item (fields ++ others) = repeated? number item fields := by
  rw [repeated?, repeated?, List.filter_append, filter_eq_nil h hne, List.append_nil]

theorem repeated?_append_right (h : Numbered other others) (hne : other ≠ number) :
    repeated? number item (others ++ fields) = repeated? number item fields := by
  rw [repeated?, repeated?, List.filter_append, filter_eq_nil h hne, List.nil_append]

theorem repeated?_map {payload : β → Payload} {value : β → α} {xs : List β}
    (h : ∀ x ∈ xs, item (payload x) = some (value x)) :
    repeated? number item (xs.map fun x => ⟨number, payload x⟩) = some (xs.map value) := by
  have all : (xs.map fun x => (⟨number, payload x⟩ : Field)).filter (·.number == number)
      = xs.map fun x => ⟨number, payload x⟩ :=
    List.filter_eq_self.2 (by simp)
  rw [repeated?, all]
  clear all
  induction xs with
  | nil => rfl
  | cons x xs ih =>
    rw [List.forall_mem_cons] at h
    rw [List.map_cons, List.mapM_cons, h.1, ih h.2]
    rfl

theorem single?_optionalField {p : Payload} {isDefault : Bool} {default value : α}
    (habsent : isDefault = true → value = default)
    (hpresent : isDefault = false → item p = some value) :
    single? number item default (optionalField number p isDefault) = some value := by
  cases isDefault with
  | true =>
    rw [habsent rfl]
    rfl
  | false =>
    have found : repeated? number item [⟨number, p⟩] = some [value] := by
      simp [repeated?, hpresent rfl]
    rw [single?, optionalField, if_neg Bool.false_ne_true, found]
    rfl

end Repeated

theorem single?_text (number : Nat) (s : String) :
    single? number textOf? "" (optionalField number (textPayload s) s.isEmpty) = some s :=
  single?_optionalField String.isEmpty_iff.1 fun _ => Bytes.text?_ofText s

theorem littleEndian_bits (x : Binary64) :
    UInt64.ofNat (Bytes.littleEndian (.ofLittleEndian 8 x.bits.toNat)) = x.bits := by
  have small : x.bits.toNat < Nat.pow 256 8 := x.bits.toNat_lt
  rw [Bytes.littleEndian_ofLittleEndian, Nat.mod_eq_of_lt small, UInt64.ofNat_toNat]

/-- A number as it is read: the zero with a sign becomes the other one. -/
def plain (x : Binary64) : Binary64 := if x.bits = 0x8000000000000000 then .zero else x

theorem isZero_iff (x : Binary64) : x.isZero = true ↔ x = .zero ∨ x.bits = 0x8000000000000000 := by
  obtain ⟨bits⟩ := x
  simp only [Binary64.isZero, Binary64.zero, beq_iff_eq, Binary64.mk.injEq, ← UInt64.toNat_inj]
  have := bits.toNat_lt
  simp [UInt64.toNat_shiftLeft, Nat.shiftLeft_eq]
  omega

theorem plain_of_isZero {x : Binary64} (h : x.isZero = true) : plain x = .zero := by
  rcases (isZero_iff x).1 h with rfl | hbits
  · rfl
  · exact if_pos hbits

theorem plain_of_not_isZero {x : Binary64} (h : x.isZero = false) : plain x = x := by
  refine if_neg fun hbits => ?_
  rw [(isZero_iff x).2 (.inr hbits)] at h
  cases h

theorem single?_double (number : Nat) (x : Binary64) :
    single? number doubleOf? .zero (optionalField number (doublePayload x) x.isZero)
      = some (plain x) := by
  refine single?_optionalField plain_of_isZero fun hzero => ?_
  rw [doublePayload, doubleOf?, littleEndian_bits, plain_of_not_isZero hzero]

theorem single?_int64 (number : Nat) {n : Int} (hlow : minInt64 ≤ n) (hhigh : n ≤ maxInt64) :
    single? number int64Of? 0 (optionalField number (int64Payload n) (n == 0)) = some n := by
  unfold minInt64 at hlow
  unfold maxInt64 at hhigh
  refine single?_optionalField (fun hzero => by simpa using hzero) fun _ => ?_
  simp only [int64Payload, int64Of?, Option.some.injEq]
  split <;> omega

theorem labelOf?_label {l : Label} (h : (label l).length < lengthLimit) :
    labelOf? (.delimited (label l)) = some l := by
  have name : single? 1 textOf? "" (labelFields l) = some l.name := by
    rw [single?, labelFields, repeated?_append_left (numbered_optionalField 2 _ _) (by decide)]
    exact single?_text 1 l.name
  have value : single? 2 textOf? "" (labelFields l) = some l.value := by
    rw [single?, labelFields, repeated?_append_right (numbered_optionalField 1 _ _) (by decide)]
    exact single?_text 2 l.value
  have known : ∀ f ∈ labelFields l, f.IsKnown := by
    intro f hf
    rcases List.mem_append.1 hf with hf | hf
    · rw [eq_of_mem_optionalField hf]
      exact ⟨.inl rfl, .inl ⟨_, rfl⟩⟩
    · rw [eq_of_mem_optionalField hf]
      exact ⟨.inr rfl, .inl ⟨_, rfl⟩⟩
  rw [← flatMap_labelFields] at h ⊢
  rw [labelOf?, messageOf?, readMessage?_flatMap h known, name, value]
  rfl

/-- The time of a sample is an integer of 64 bits. -/
def IsTimed (s : Sample) : Prop := minInt64 ≤ s.timestamp ∧ s.timestamp ≤ maxInt64

def plainSample (s : Sample) : Sample := { s with value := plain s.value }

def plainSeries (s : TimeSeries) : TimeSeries := { s with samples := s.samples.map plainSample }

theorem sampleOf?_sample {s : Sample} (hs : IsTimed s) (h : (sample s).length < lengthLimit) :
    sampleOf? (.delimited (sample s)) = some (plainSample s) := by
  have value : single? 1 doubleOf? .zero (sampleFields s) = some (plain s.value) := by
    rw [single?, sampleFields, repeated?_append_left (numbered_optionalField 2 _ _) (by decide)]
    exact single?_double 1 s.value
  have time : single? 2 int64Of? 0 (sampleFields s) = some s.timestamp := by
    rw [single?, sampleFields, repeated?_append_right (numbered_optionalField 1 _ _) (by decide)]
    exact single?_int64 2 hs.1 hs.2
  have known : ∀ f ∈ sampleFields s, f.IsKnown := by
    intro f hf
    rcases List.mem_append.1 hf with hf | hf
    · rw [eq_of_mem_optionalField hf]
      exact ⟨.inl rfl, .inr (Bytes.length_ofLittleEndian 8 _)⟩
    · rw [eq_of_mem_optionalField hf]
      refine ⟨.inr rfl, .inr ?_⟩
      change (s.timestamp % 0x10000000000000000).toNat < 0x10000000000000000
      omega
  rw [← flatMap_sampleFields] at h ⊢
  rw [sampleOf?, messageOf?, readMessage?_flatMap h known, value, time]
  rfl

theorem numbered_map {β : Type} (number : Nat) (payload : β → Payload) (xs : List β) :
    Numbered number (xs.map fun x => ⟨number, payload x⟩) := by
  intro f hf
  obtain ⟨_, _, rfl⟩ := List.mem_map.1 hf
  rfl

theorem timeSeriesOf?_timeSeries {s : TimeSeries} (hs : ∀ x ∈ s.samples, IsTimed x)
    (h : (timeSeries s).length < lengthLimit) :
    timeSeriesOf? (.delimited (timeSeries s)) = some (plainSeries s) := by
  rw [← flatMap_timeSeriesFields] at h
  have inner {number : Nat} {b : Bytes} (hb : ⟨number, .delimited b⟩ ∈ timeSeriesFields s) :
      b.length < lengthLimit := Nat.lt_of_le_of_lt (length_le_of_delimited_mem hb) h
  have labels : repeated? 1 labelOf? (timeSeriesFields s) = some s.labels := by
    rw [timeSeriesFields, repeated?_append_left (numbered_map 2 _ _) (by decide)]
    have found : repeated? 1 labelOf? (s.labels.map fun l => ⟨1, .delimited (label l)⟩)
        = some (s.labels.map id) :=
      repeated?_map fun l hl =>
        labelOf?_label (inner (List.mem_append_left _ (List.mem_map_of_mem hl)))
    rw [found, List.map_id]
  have samples : repeated? 2 sampleOf? (timeSeriesFields s)
      = some (s.samples.map plainSample) := by
    rw [timeSeriesFields, repeated?_append_right (numbered_map 1 _ _) (by decide)]
    exact repeated?_map fun x hx =>
      sampleOf?_sample (hs x hx) (inner (List.mem_append_right _ (List.mem_map_of_mem hx)))
  have known : ∀ f ∈ timeSeriesFields s, f.IsKnown := by
    intro f hf
    rcases List.mem_append.1 hf with hf | hf
    · obtain ⟨l, _, rfl⟩ := List.mem_map.1 hf
      exact ⟨.inl rfl, .inl ⟨_, rfl⟩⟩
    · obtain ⟨x, _, rfl⟩ := List.mem_map.1 hf
      exact ⟨.inr rfl, .inl ⟨_, rfl⟩⟩
  rw [← flatMap_timeSeriesFields, timeSeriesOf?, messageOf?, readMessage?_flatMap h known, labels,
    samples]
  rfl

def AreTimed (series : List TimeSeries) : Prop := ∀ s ∈ series, ∀ x ∈ s.samples, IsTimed x

theorem readRequest?_writeRequest {series : List TimeSeries} (hs : AreTimed series)
    (h : (writeRequest series).length < lengthLimit) :
    readRequest? (writeRequest series) = some (series.map plainSeries) := by
  rw [← flatMap_requestFields] at h ⊢
  have known : ∀ f ∈ requestFields series, f.IsKnown := by
    intro f hf
    obtain ⟨s, _, rfl⟩ := List.mem_map.1 hf
    exact ⟨.inl rfl, .inl ⟨_, rfl⟩⟩
  rw [readRequest?, readMessage?_flatMap h known]
  refine repeated?_map fun s hmem => timeSeriesOf?_timeSeries (hs s hmem) ?_
  have field : ⟨1, .delimited (timeSeries s)⟩ ∈ requestFields series :=
    List.mem_map_of_mem (f := fun s => (⟨1, .delimited (timeSeries s)⟩ : Field)) hmem
  exact Nat.lt_of_le_of_lt (length_le_of_delimited_mem field) h

/-- Neither the empty value nor the zero is written, and the zero comes back without its sign. -/
example : readRequest? (writeRequest [⟨[⟨"up", ""⟩], [⟨-1, ⟨0x8000000000000000⟩⟩]⟩])
    = some [⟨[⟨"up", ""⟩], [⟨-1, .zero⟩]⟩] := by
  decide +kernel

theorem double_plain (number : Nat) (x : Binary64) : double number (plain x) = double number x := by
  cases h : x.isZero with
  | true => simp only [plain_of_isZero h, double, h]; rfl
  | false => rw [plain_of_not_isZero h]

theorem sample_plainSample (s : Sample) : sample (plainSample s) = sample s := by
  rw [sample, plainSample, double_plain, sample]

theorem timeSeries_plainSeries (s : TimeSeries) : timeSeries (plainSeries s) = timeSeries s := by
  simp only [timeSeries, plainSeries, List.flatMap_map, sample_plainSample]

theorem writeRequest_map_plainSeries (series : List TimeSeries) :
    writeRequest (series.map plainSeries) = writeRequest series := by
  simp only [writeRequest, List.flatMap_map, timeSeries_plainSeries]

theorem length_lt_of_encode? {message block : Bytes} (h : Snappy.encode? message = some block) :
    message.length < lengthLimit := by
  unfold Snappy.encode? at h
  split at h
  · next hroom =>
    simp only [Snappy.roomFor, Snappy.maxLength] at hroom
    unfold lengthLimit
    omega
  · cases h

/-- A request that is written is read back, whether it was compressed or not, and two requests are
compressed to the same bytes exactly if they differ in the signs of zeros alone. -/
theorem loses_nothing {series : List TimeSeries} (hs : AreTimed series) :
    ((writeRequest series).length < lengthLimit →
      readRequest? (writeRequest series) = some (series.map plainSeries)) ∧
    ∀ block, Snappy.encode? (writeRequest series) = some block →
      (∃ message, Snappy.decode? block = some message ∧
        readRequest? message = some (series.map plainSeries)) ∧
      ∀ other, AreTimed other → (Snappy.encode? (writeRequest other) = some block ↔
        other.map plainSeries = series.map plainSeries) := by
  refine ⟨readRequest?_writeRequest hs, fun block hblock => ?_⟩
  have content := Snappy.decode?_encode? hblock
  have found := readRequest?_writeRequest hs (length_lt_of_encode? hblock)
  refine ⟨⟨_, content, found⟩, fun other ho => ⟨fun hother => ?_, fun heq => ?_⟩⟩
  · have same : writeRequest other = writeRequest series :=
      Option.some.inj ((Snappy.decode?_encode? hother).symm.trans content)
    have found' := readRequest?_writeRequest ho (length_lt_of_encode? hother)
    rw [same, found] at found'
    exact (Option.some.inj found').symm
  · rw [← writeRequest_map_plainSeries, heq, writeRequest_map_plainSeries, hblock]

/-- Empty names and values, no samples at all, zeros of both signs, and a number that is none. -/
def extremes : List TimeSeries := [
  ⟨[⟨"", ""⟩, ⟨"é", ""⟩, ⟨"", "x"⟩],
    [⟨-1, ⟨0x8000000000000000⟩⟩, ⟨0, ⟨0⟩⟩, ⟨minInt64, ⟨0x7ff8000000000001⟩⟩, ⟨maxInt64, ⟨1⟩⟩]⟩,
  ⟨[], []⟩]

theorem areTimed_extremes : AreTimed extremes := by
  unfold AreTimed IsTimed
  decide +kernel

/-- The sign of a zero is all that is lost. -/
theorem loses_nothing_of_extremes : ∃ block,
    Snappy.encode? (writeRequest extremes) = some block ∧
      ∃ message, Snappy.decode? block = some message ∧
        readRequest? message = some (extremes.map plainSeries) := by
  have room : Snappy.roomFor (writeRequest extremes).length ≤ Snappy.maxLength := by decide +kernel
  have found : Snappy.encode? (writeRequest extremes) = some _ := if_pos room
  exact ⟨_, found, ((loses_nothing areTimed_extremes).2 _ found).1⟩

end Protobuf
end TenantGate
