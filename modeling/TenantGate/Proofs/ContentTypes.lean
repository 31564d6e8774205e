import Mathlib.Data.List.TakeWhile
import Mathlib.Tactic.Common
import TenantGate.Ingest.ContentType
import TenantGate.Text.Characters
/-!
# Which content types pass for JSON

A value passes if one of its parts is the type of JSON and all parts before that one are types.  So
what comes after such a part does not matter, and a first part that is no type spoils every value.
-/

namespace TenantGate
namespace ContentType

/-- A part of a value is a type, blanks at both ends apart. -/
def IsType (part : String) : Prop := (MediaType.essence? (Text.trim part)).isSome = true

def writtenNames (part : String) : String :=
  String.ofList ((Text.trim part).toList.takeWhile (· != ';'))

/-- A part is a type whose names are those of JSON in some case. -/
structure IsJson (part : String) : Prop where
  isType : IsType part
  named : (writtenNames part).toLower = json

/-- A part is the type of JSON, and all parts before it are types. -/
def Lists (parts : List String) : Prop :=
  ∃ before part after, parts = before ++ part :: after ∧ (∀ p ∈ before, IsType p) ∧ IsJson part

variable {part : String} {listed : List String}

theorem exists_names {s e : String} (h : MediaType.essence? s = some e) :
    ∃ top sub rest, s.toList = (top ++ '/' :: sub) ++ rest ∧
      (∀ c ∈ top ++ '/' :: sub, c ≠ ';') ∧ (∀ c ∈ rest.head?, c = ';') ∧
      e = (String.ofList (top ++ '/' :: sub)).toLower := by
  have notSemicolon {t : List Char} {c : Char} (hc : c ∈ t.takeWhile Headers.isNameChar) : c ≠ ';' :=
    Text.ne_of_test (List.mem_takeWhile_imp hc) (by decide)
  have htop := List.takeWhile_append_dropWhile (p := Headers.isNameChar) (l := s.toList)
  simp only [MediaType.essence?] at h
  split at h
  · next r hr =>
    have hsub := List.takeWhile_append_dropWhile (p := Headers.isNameChar) (l := r)
    obtain ⟨hend, rfl⟩ : (∀ c ∈ (r.dropWhile Headers.isNameChar).head?, c = ';') ∧
        e = (String.ofList (s.toList.takeWhile Headers.isNameChar
          ++ '/' :: r.takeWhile Headers.isNameChar)).toLower := by
      split at h
      · cases h
      split at h
      · next hnone =>
        rw [hnone]
        exact ⟨by simp, (Option.some.inj h).symm⟩
      · next parameters hsome =>
        rw [hsome]
        exact ⟨by simp, (Option.some.inj (Option.ite_none_right_eq_some.1 h).2).symm⟩
      · cases h
    refine ⟨_, _, r.dropWhile Headers.isNameChar, ?_, ?_, hend, rfl⟩
    · rw [List.append_assoc, List.cons_append, hsub, ← hr, htop]
    · simp only [List.mem_append, List.mem_cons]
      rintro c (hc | rfl | hc)
      · exact notSemicolon hc
      · decide
      · exact notSemicolon hc
  · cases h

/-- The names of a type end at its first semicolon, if it has one. -/
theorem essence?_eq {s e : String} (h : MediaType.essence? s = some e) :
    e = (String.ofList (s.toList.takeWhile (· != ';'))).toLower := by
  obtain ⟨top, sub, rest, hs, hnames, hrest, rfl⟩ := exists_names h
  have hkept : ∀ c ∈ top ++ '/' :: sub, (c != ';') = true := fun c hc => bne_iff_ne.2 (hnames c hc)
  have hend : rest.takeWhile (· != ';') = [] := by
    cases rest with
    | nil => rfl
    | cons c rest => exact List.takeWhile_cons_of_neg (by simp [hrest c rfl])
  rw [hs, List.takeWhile_append_of_pos hkept, hend, List.append_nil]

theorem isJson_iff : IsJson part ↔ MediaType.essence? (Text.trim part) = some json := by
  constructor
  · rintro ⟨htype, hnamed⟩
    obtain ⟨e, he⟩ := Option.isSome_iff_exists.1 htype
    rw [he, ← hnamed, writtenNames, ← essence?_eq he]
  · intro h
    exact ⟨Option.isSome_iff_exists.2 ⟨json, h⟩, (essence?_eq h).symm⟩

theorem lists_cons : Lists (part :: listed) ↔ IsJson part ∨ IsType part ∧ Lists listed := by
  constructor
  · rintro ⟨before, p, after, heq, htypes, hjson⟩
    cases before with
    | nil =>
      obtain ⟨rfl, _⟩ := List.cons.inj heq
      exact .inl hjson
    | cons b before =>
      obtain ⟨rfl, hrest⟩ := List.cons.inj heq
      rw [List.forall_mem_cons] at htypes
      exact .inr ⟨htypes.1, before, p, after, hrest, htypes.2, hjson⟩
  · rintro (hjson | ⟨htype, before, p, after, rfl, htypes, hjson⟩)
    · exact ⟨[], part, listed, rfl, by simp, hjson⟩
    · exact ⟨part :: before, p, after, rfl, List.forall_mem_cons.2 ⟨htype, htypes⟩, hjson⟩

/-- The scan finds a part of the wanted type unless a part that is no type stands before it. -/
theorem listed_iff : MediaType.listed json listed = true ↔ Lists listed := by
  induction listed with
  | nil =>
    simp [MediaType.listed, Lists]
  | cons part listed ih =>
    rw [lists_cons, isJson_iff, ← ih, MediaType.listed]
    cases he : MediaType.essence? (Text.trim part) with
    | none => simp [IsType, he]
    | some e => simp [IsType, he]

theorem Lists.append (h : Lists listed) (more : List String) : Lists (listed ++ more) := by
  obtain ⟨before, part, after, rfl, htypes, hjson⟩ := h
  exact ⟨before, part, after ++ more, by simp, htypes, hjson⟩

theorem not_lists_cons (h : ¬IsType part) (listed : List String) : ¬Lists (part :: listed) := by
  rw [lists_cons]
  rintro (hjson | ⟨htype, _⟩)
  · exact h hjson.isType
  · exact h htype

def comma : UInt8 := 0x2c

/-- A value is visible, and its parts list the type of JSON. -/
structure Passes (value : Bytes) : Prop where
  visible : ∀ b ∈ value, Headers.isVisible b = true
  lists : Lists (parts (Bytes.latin1 value))

theorem parts_latin1_append (a b : Bytes) : parts (Bytes.latin1 (a ++ comma :: b))
    = parts (Bytes.latin1 a) ++ parts (Bytes.latin1 b) := by
  have hcomma : Char.ofNat comma.toNat = ',' := by decide
  simp only [parts, Bytes.latin1, String.toList_ofList, List.map_append, List.map_cons, hcomma,
    List.splitOn_append_cons_self]

theorem parts_latin1_of_not_mem {a : Bytes} (h : comma ∉ a) :
    parts (Bytes.latin1 a) = [Bytes.latin1 a] := by
  have hlist : ',' ∉ a.map fun x => Char.ofNat x.toNat := by
    intro hmem
    obtain ⟨x, hx, heq⟩ := List.mem_map.1 hmem
    have every : ∀ n < 256, Char.ofNat n = ',' → UInt8.ofNat n = comma := by
      decide +kernel
    have hcomma := every x.toNat x.toNat_lt heq
    rw [UInt8.ofNat_toNat] at hcomma
    exact h (hcomma ▸ hx)
  simp only [parts, Bytes.latin1, String.toList_ofList, List.splitOn_eq_singleton hlist,
    List.map_cons, List.map_nil]

theorem Passes.append {value text : Bytes} (h : Passes value)
    (htext : ∀ b ∈ text, Headers.isVisible b = true) : Passes (value ++ comma :: text) where
  visible := by
    simp only [List.mem_append, List.mem_cons]
    rintro b (hb | rfl | hb)
    · exact h.visible b hb
    · decide
    · exact htext b hb
  lists := by
    rw [parts_latin1_append]
    exact h.lists.append _

theorem not_passes_append {a value : Bytes} (hcomma : comma ∉ a)
    (htype : ¬IsType (Bytes.latin1 a)) : ¬Passes (a ++ comma :: value) := by
  intro h
  have hlists := h.lists
  rw [parts_latin1_append, parts_latin1_of_not_mem hcomma, List.singleton_append] at hlists
  exact not_lists_cons htype _ hlists

variable {headers : Headers} {value : Bytes}

theorem check_of_empty
    (h : headers.get? "content-type" = none ∨ headers.get? "content-type" = some []) :
    check headers = .error .missing := by
  rcases h with h | h <;> simp only [check, h]

theorem check_of_passes (h : headers.get? "content-type" = some value) (hne : value ≠ [])
    (hpasses : Passes value) : check headers = .ok () := by
  obtain ⟨b, rest, rfl⟩ := List.exists_cons_of_ne_nil hne
  have hvisible : Headers.visible? (b :: rest) = some (Bytes.latin1 (b :: rest)) :=
    if_pos (List.all_eq_true.2 hpasses.visible)
  simp only [check, h, hvisible, if_pos (listed_iff.2 hpasses.lists)]

theorem check_of_not_passes (h : headers.get? "content-type" = some value) (hne : value ≠ [])
    (hnot : ¬Passes value) : check headers = .error .unexpected := by
  obtain ⟨b, rest, rfl⟩ := List.exists_cons_of_ne_nil hne
  by_cases hvisible : (b :: rest).all Headers.isVisible = true
  · have hlists : ¬MediaType.listed json (parts (Bytes.latin1 (b :: rest))) = true := fun hlisted =>
      hnot ⟨List.all_eq_true.1 hvisible, listed_iff.1 hlisted⟩
    simp only [check, h, Headers.visible?, if_pos hvisible, if_neg hlists]
  · simp only [check, h, Headers.visible?, if_neg hvisible]

theorem check_cases (headers : Headers) :
    (check headers = .ok () ↔
      ∃ value, headers.get? "content-type" = some value ∧ value ≠ [] ∧ Passes value) ∧
    (check headers = .error .missing ↔
      headers.get? "content-type" = none ∨ headers.get? "content-type" = some []) ∧
    (check headers = .error .unexpected ↔
      ∃ value, headers.get? "content-type" = some value ∧ value ≠ [] ∧ ¬Passes value) := by
  rcases headers.get?_cases "content-type" with hempty | ⟨value, h, hne⟩
  · have hmissing := check_of_empty hempty
    refine ⟨?_, ?_, ?_⟩ <;> rcases hempty with h | h <;> simp [hmissing, h]
  · by_cases hpasses : Passes value
    · have hok := check_of_passes h hne hpasses
      refine ⟨?_, ?_, ?_⟩ <;> simp [hok, h, hne, hpasses]
    · have hunexpected := check_of_not_passes h hne hpasses
      refine ⟨?_, ?_, ?_⟩ <;> simp [hunexpected, h, hne, hpasses]

/-- The three outcomes of looking for the type of JSON.  A value that passes still does with more text
after a comma, and none passes after a part that is no type. -/
theorem check_outcomes (headers : Headers) :
    (check headers = .ok () ↔
      ∃ value, headers.get? "content-type" = some value ∧ value ≠ [] ∧ Passes value) ∧
    (check headers = .error .missing ↔
      headers.get? "content-type" = none ∨ headers.get? "content-type" = some []) ∧
    (check headers = .error .unexpected ↔
      ∃ value, headers.get? "content-type" = some value ∧ value ≠ [] ∧ ¬Passes value) ∧
    (∀ value text extended, headers.get? "content-type" = some value → check headers = .ok () →
      (∀ b ∈ text, Headers.isVisible b = true) →
      extended.get? "content-type" = some (value ++ comma :: text) → check extended = .ok ()) ∧
    ∀ part value, comma ∉ part → ¬IsType (Bytes.latin1 part) →
      headers.get? "content-type" = some (part ++ comma :: value) →
      check headers = .error .unexpected := by
  obtain ⟨hok, hmissing, hunexpected⟩ := check_cases headers
  refine ⟨hok, hmissing, hunexpected, ?_, ?_⟩
  · intro value text extended h hchecked htext hextended
    obtain ⟨other, hother, _, hpasses⟩ := hok.1 hchecked
    obtain rfl := Option.some.inj (h.symm.trans hother)
    exact check_of_passes hextended (by simp) (hpasses.append htext)
  · intro part value hcomma htype h
    exact check_of_not_passes h (by simp) (not_passes_append hcomma htype)

def typed (value : Bytes) : Headers := ⟨[(.contentType, value)]⟩

def sampleValue : Bytes := Bytes.ofText "text/plain; q=1 , Application/JSON;charset=utf-8"

/-- The type of JSON after another type, then before a text that is no type, and after one. -/
theorem check_outcomes_of_sample :
    check (typed sampleValue) = .ok () ∧
      check (typed (sampleValue ++ comma :: Bytes.ofText " ;x=\"y,")) = .ok () ∧
      check (typed (Bytes.ofText "json" ++ comma :: sampleValue)) = .error .unexpected := by
  have hsample : check (typed sampleValue) = .ok () := by decide +kernel
  refine ⟨hsample, ?_, ?_⟩
  · exact (check_outcomes (typed sampleValue)).2.2.2.1 sampleValue (Bytes.ofText " ;x=\"y,") _ rfl
      hsample (by decide +kernel) rfl
  · exact (check_outcomes _).2.2.2.2 (Bytes.ofText "json") sampleValue (by decide +kernel)
      (by unfold IsType; decide +kernel) rfl

end ContentType
end TenantGate
