import TenantGate.Bytes
import TenantGate.Text.Characters
/-!
# Header fields

A header is a list of fields in the order in which they were added.  Names are kept in lower case,
and a name may have several values.  What a header says about a name is the list of its values.
-/

namespace TenantGate
namespace Headers

def isNameChar (c : Char) : Bool :=
  c.isAlphanum || "!#$%&'*+-.^_\x60|~".toList.contains c

/-- The name that a text stands for, in lower case. -/
def name? (s : String) : Option String :=
  if !s.isEmpty && s.length < 65536 && s.toList.all isNameChar then some s.toLower else none

/-- A name as it is kept stands for itself. -/
def IsName (s : String) : Prop := name? s = some s

instance : DecidablePred IsName := fun s => inferInstanceAs (Decidable (name? s = some s))

theorem toLower_toLower (s : String) : s.toLower.toLower = s.toLower := by
  apply String.toList_injective
  rw [Text.toList_toLower, Text.toList_toLower, List.map_map]
  congr 1
  funext c
  exact Text.toLower_toLower c

theorem isNameChar_toLower {c : Char} (h : isNameChar c = true) : isNameChar c.toLower = true := by
  by_cases hlt : c.toNat < 128
  · exact Text.forall_ascii (P := fun c => isNameChar c = true → isNameChar c.toLower = true)
      (by decide +kernel) hlt h
  · rw [Text.toLower_of_le (by omega)]
    exact h

theorem isName_of_name? {s name : String} (h : name? s = some name) : IsName name := by
  unfold name? at h
  split at h
  · next hs =>
    obtain rfl := Option.some.inj h
    simp only [Bool.and_eq_true, Bool.not_eq_true', String.isEmpty_eq_false_iff,
      decide_eq_true_eq, List.all_eq_true] at hs
    obtain ⟨⟨hne, hlength⟩, hchars⟩ := hs
    have hne' : s.toLower ≠ "" := by
      intro hempty
      have hnil : s.toList.map Char.toLower = [] := by rw [← Text.toList_toLower, hempty]; rfl
      exact hne (String.toList_eq_nil_iff.1 (List.map_eq_nil_iff.1 hnil))
    have hlength' : s.toLower.length < 65536 := by
      rw [← String.length_toList, Text.toList_toLower, List.length_map, String.length_toList]
      exact hlength
    have hchars' : ∀ c ∈ s.toLower.toList, isNameChar c = true := by
      rw [Text.toList_toLower]
      intro c hc
      obtain ⟨d, hd, rfl⟩ := List.mem_map.1 hc
      exact isNameChar_toLower (hchars d hd)
    have hall : s.toLower.toList.all isNameChar = true := List.all_eq_true.2 hchars'
    rw [IsName, name?, if_pos (by simp [hne', hlength', hall]), toLower_toLower]
  · cases h

end Headers

structure HeaderName where
  text : String
  isName : Headers.IsName text
  deriving DecidableEq, Repr

namespace HeaderName

/-- The name that a text stands for in any case. -/
def of? (s : String) : Option HeaderName :=
  (Headers.name? s).pmap HeaderName.mk fun _ => Headers.isName_of_name?

@[simp] def accept : HeaderName := ⟨"accept", by decide +kernel⟩

@[simp] def authorization : HeaderName := ⟨"authorization", by decide +kernel⟩

@[simp] def connection : HeaderName := ⟨"connection", by decide +kernel⟩

@[simp] def contentEncoding : HeaderName := ⟨"content-encoding", by decide +kernel⟩

@[simp] def contentLength : HeaderName := ⟨"content-length", by decide +kernel⟩

@[simp] def contentType : HeaderName := ⟨"content-type", by decide +kernel⟩

@[simp] def referer : HeaderName := ⟨"referer", by decide +kernel⟩

@[simp] def upgrade : HeaderName := ⟨"upgrade", by decide +kernel⟩

end HeaderName

structure Headers where
  fields : List (HeaderName × Bytes) := []
  deriving DecidableEq, Repr

namespace Headers

def values (h : Headers) (name : String) : List Bytes :=
  (h.fields.filter fun f => f.1.text == name).map (·.2)

def get? (h : Headers) (name : String) : Option Bytes := (h.values name).head?

def contains (h : Headers) (name : String) : Bool := !(h.values name).isEmpty

def append (h : Headers) (name : HeaderName) (value : Bytes) : Headers :=
  ⟨h.fields ++ [(name, value)]⟩

def remove (h : Headers) (name : String) : Headers :=
  ⟨h.fields.filter fun f => f.1.text != name⟩

/-- Makes `value` the only value of a name. -/
def insert (h : Headers) (name : HeaderName) (value : Bytes) : Headers :=
  (h.remove name.text).append name value

def removeAll (h : Headers) (names : List String) : Headers := names.foldl remove h

theorem get?_cases (h : Headers) (name : String) :
    (h.get? name = none ∨ h.get? name = some []) ∨ ∃ value, h.get? name = some value ∧ value ≠ [] := by
  cases hvalue : h.get? name with
  | none => exact .inl (.inl rfl)
  | some value =>
    by_cases hempty : value = []
    · exact .inl (.inr (congrArg some hempty))
    · exact .inr ⟨value, rfl, hempty⟩

@[simp] theorem values_append (h : Headers) (name : HeaderName) (other : String)
    (value : Bytes) : (h.append name value).values other =
      h.values other ++ if name.text = other then [value] else [] := by
  by_cases hn : name.text = other <;> simp [append, values, hn]

@[simp] theorem values_remove (h : Headers) (name other : String) :
    (h.remove name).values other = if name = other then [] else h.values other := by
  by_cases hn : name = other
  · subst hn
    simp [remove, values]
  · have hp (f : HeaderName × Bytes) :
        (f.1.text != name && f.1.text == other) = (f.1.text == other) := by
      by_cases hf : f.1.text = other
      · simp [hf, Ne.symm hn]
      · simp [hf]
    simp only [remove, values, List.filter_filter, if_neg hn]
    congr 2
    funext f
    rw [Bool.and_comm]
    exact hp f

@[simp] theorem values_insert (h : Headers) (name : HeaderName) (other : String)
    (value : Bytes) : (h.insert name value).values other =
      if name.text = other then [value] else h.values other := by
  by_cases hn : name.text = other <;> simp [insert, hn]

@[simp] theorem values_removeAll (h : Headers) (names : List String) (other : String) :
    (h.removeAll names).values other = if other ∈ names then [] else h.values other := by
  induction names generalizing h with
  | nil => simp [removeAll]
  | cons n ns ih =>
    have step : h.removeAll (n :: ns) = (h.remove n).removeAll ns := rfl
    rw [step, ih]
    by_cases hn : n = other
    · simp [hn]
    · simp [hn, Ne.symm hn]

@[ext] theorem ext {h k : Headers} (hfields : h.fields = k.fields) : h = k := by
  cases h
  cases k
  exact congrArg Headers.mk hfields

theorem fields_removeAll (h : Headers) (names : List String) :
    (h.removeAll names).fields = h.fields.filter fun f => f.1.text ∉ names := by
  induction names generalizing h with
  | nil => exact (List.filter_eq_self.2 (by simp)).symm
  | cons name names ih =>
    have step : h.removeAll (name :: names) = (h.remove name).removeAll names := rfl
    rw [step, ih, remove, List.filter_filter]
    apply List.filter_congr
    intro f _
    by_cases hname : f.1.text = name <;> simp [hname]

theorem values_eq_nil_of_not_isName (h : Headers) {name : String} (hname : ¬IsName name) :
    h.values name = [] := by
  simp only [values, List.map_eq_nil_iff, List.filter_eq_nil_iff, beq_iff_eq]
  rintro f _ rfl
  exact hname f.1.isName

def isVisible (b : UInt8) : Bool := b == 0x09 || (0x20 ≤ b && b ≤ 0x7e)

/-- The text of a value that holds visible ASCII characters, blanks and tabs only. -/
def visible? (v : Bytes) : Option String :=
  if v.all isVisible then some (Bytes.latin1 v) else none

def isValueByte (b : UInt8) : Bool := b == 0x09 || (0x20 ≤ b && b != 0x7f)

def isValue (v : Bytes) : Bool := v.all isValueByte

/-- The fields in the order of their names; the values of one name keep their order. -/
def sorted (h : Headers) : List (HeaderName × Bytes) :=
  h.fields.mergeSort fun f g => f.1.text ≤ g.1.text

end Headers
end TenantGate
