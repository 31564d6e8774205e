import TenantGate.Key.KeySet
import TenantGate.Proofs.JsonSoundness
/-!
# What key sources say

A set binds a name to the last text that it has for it.  The keys of sources that are accepted are
those of the texts that are bound, each found by its name, and the key of the legacy text.
-/

namespace TenantGate

namespace Json

/-- The members of an object of texts. -/
def Tree.ofTexts (entries : List (String × String)) : Tree :=
  .object (entries.map fun e => (e.1, .text e.2))

theorem Tree.entries?_text {v : Tree} {entries : List (String × String)} :
    v.entries? Tree.text? = some entries ↔ v = Tree.ofTexts entries := by
  have members (ps : List (String × Tree)) :
      ps.mapM (fun p => p.2.text?.map (p.1, ·)) = some entries ↔
        ps = entries.map fun e => (e.1, .text e.2) := by
    induction ps generalizing entries with
    | nil => cases entries <;> simp
    | cons p ps ih =>
      obtain ⟨name, value⟩ := p
      rw [mapM_cons_eq_some]
      constructor
      · rintro ⟨e, rest, he, hrest, rfl⟩
        obtain ⟨t, ht, rfl⟩ := Option.map_eq_some_iff.1 he
        cases value with
        | text s =>
          obtain rfl := Option.some.inj ht
          rw [List.map_cons, ih.1 hrest]
        | null | boolean | number | list | object => simp [Tree.text?] at ht
      · intro heq
        cases entries with
        | nil => cases heq
        | cons e entries =>
          obtain ⟨hp, hps⟩ := List.cons.inj heq
          obtain ⟨rfl, rfl⟩ := Prod.mk.inj hp
          exact ⟨e, entries, rfl, ih.2 hps, rfl⟩
  cases v with
  | object ps =>
    rw [Tree.entries?, members ps, Tree.ofTexts, Tree.object.injEq]
  | null | boolean | number | text | list => simp [Tree.entries?, Tree.ofTexts]

end Json

namespace KeySet

open Json

/-- The text writes an object of these names and texts. -/
def Lists (text : String) (entries : List (String × String)) : Prop :=
  ∃ s w, Bytes.ofText text = s ++ w ∧ Writes (.value (Tree.ofTexts entries)) s ∧ Blank w

theorem document_eq_ok_iff_lists {text : String} {entries : List (String × String)} :
    document (Json.map Json.text) (Bytes.ofText text) = .ok entries ↔ Lists text entries := by
  rw [document_eq_ok_iff (reads_map reads_text?) (sound_map sound_text)]
  constructor
  · rintro ⟨v, s, w, hdoc, hv, hw, hentries⟩
    obtain rfl := Tree.entries?_text.1 hentries
    exact ⟨s, w, hdoc, hv, hw⟩
  · rintro ⟨s, w, hdoc, hv, hw⟩
    exact ⟨_, s, w, hdoc, hv, hw, Tree.entries?_text.2 rfl⟩

/-- What a set says is one thing only, however it is written. -/
theorem Lists.unique {text : String} {entries entries' : List (String × String)}
    (h : Lists text entries) (h' : Lists text entries') : entries = entries' := by
  have read := document_eq_ok_iff_lists.2 h
  rw [document_eq_ok_iff_lists.2 h'] at read
  exact (Except.ok.inj read).symm

/-- The set binds a name to a text: among the members of this name, the last one counts. -/
def Binds (set : Option String) (name pem : String) : Prop :=
  ∃ text entries, set = some text ∧ Lists text entries ∧ entries.reverse.lookup name = some pem

theorem binds_iff {text : String} {entries : List (String × String)} (h : Lists text entries)
    {name pem : String} : Binds (some text) name pem ↔ entries.reverse.lookup name = some pem := by
  constructor
  · rintro ⟨text', entries', htext, hentries, hlookup⟩
    obtain rfl := Option.some.inj htext
    rw [h.unique hentries]
    exact hlookup
  · intro hlookup
    exact ⟨text, entries, rfl, h, hlookup⟩

theorem lookup_filterMap {β : Type} (f : String → Option β) (name : String) (names : List String) :
    (names.filterMap fun n => (f n).map fun x => (n, x)).lookup name =
      if name ∈ names then f name else none := by
  induction names with
  | nil => rfl
  | cons n names ih =>
    rw [List.filterMap_cons]
    by_cases hn : name = n
    · subst hn
      rw [if_pos List.mem_cons_self]
      cases hf : f name with
      | none =>
        simp only [Option.map_none, ih, hf]
        split <;> rfl
      | some x => simp
    · have hne : (name == n) = false := beq_eq_false_iff_ne.2 hn
      have hmem : name ∈ n :: names ↔ name ∈ names := by simp [hn]
      simp only [hmem]
      cases hf : f n with
      | none => exact ih
      | some x =>
        simp only [Option.map_some, List.lookup_cons, hne]
        exact ih

theorem lookup_lastValues (members : List (String × String)) (name : String) :
    (lastValues members).lookup name = members.reverse.lookup name := by
  rw [lastValues, lookup_filterMap]
  split
  · rfl
  · next hname =>
    refine (lookup_eq_none ?_).symm
    rwa [List.map_reverse, List.mem_reverse, ← List.mem_eraseDups]

def keyOf? (pem : String) : Option RsaKey := RsaKey.ofPem? (Text.trim pem)

theorem readKey_eq_ok_iff {name pem : String} {key : RsaKey} :
    readKey name pem = .ok key ↔ keyOf? pem = some key := by
  unfold readKey keyOf?
  split <;> simp_all

theorem readEntry_eq_ok_iff {name pem : String} {e : String × RsaKey} :
    readEntry name pem = .ok e ↔ keyOf? pem = some e.2 ∧ keyId pem = name ∧ e.1 = name := by
  simp only [readEntry, Result.bind_eq_ok, readKey_eq_ok_iff]
  constructor
  · rintro ⟨key, hkey, h⟩
    split at h
    · next hname =>
      obtain rfl := Result.pure_eq_ok.1 h
      exact ⟨hkey, hname, rfl⟩
    · simp [throw, throwThe, MonadExceptOf.throw] at h
  · rintro ⟨hkey, hname, rfl⟩
    exact ⟨e.2, hkey, by rw [if_pos hname]; rfl⟩

theorem lookup_of_mapM {entries : List (String × String)} {keys : List (String × RsaKey)}
    (h : entries.mapM (fun e => readEntry e.1 e.2) = .ok keys) (name : String) :
    keys.lookup name = (entries.lookup name).bind keyOf? := by
  induction entries generalizing keys with
  | nil =>
    rw [List.mapM_nil] at h
    obtain rfl := Result.pure_eq_ok.1 h
    rfl
  | cons e entries ih =>
    rw [List.mapM_cons] at h
    obtain ⟨k, hk, h⟩ := Result.bind_eq_ok.1 h
    obtain ⟨keys', hkeys, h⟩ := Result.bind_eq_ok.1 h
    obtain rfl := Result.pure_eq_ok.1 h
    obtain ⟨hkey, _, hname⟩ := readEntry_eq_ok_iff.1 hk
    rw [List.lookup_cons, List.lookup_cons, hname]
    cases hb : name == e.1 with
    | true => exact hkey.symm
    | false => exact ih hkeys

/-- The sources are read as they are, but the texts of a set are looked at in an order of their own,
as in a map that keeps none. -/
def ofSourcesIn (order : List (String × String) → List (String × String))
    (set legacy : Option String) : Except KeySetError KeySet := do
  let legacy ← readLegacy legacy
  let text ← match set with
    | none => throw (.missingVariable setVariable)
    | some "" => throw (.emptyVariable setVariable)
    | some text => pure text
  let members ← (Json.document (Json.map Json.text) (Bytes.ofText text)).mapError
    (KeySetError.invalidJson setVariable)
  let keys ← (order (lastValues members)).mapM fun (name, pem) => readEntry name pem
  return ⟨keys, legacy⟩

theorem ofSourcesIn_id : ofSourcesIn id = ofSources := rfl

theorem ofSourcesIn_eq_ok_iff {order : List (String × String) → List (String × String)}
    {set legacy : Option String} {k : KeySet} :
    ofSourcesIn order set legacy = .ok k ↔ ∃ text entries, set = some text ∧ text ≠ "" ∧
      readLegacy legacy = .ok k.legacy ∧ Lists text entries ∧
      (order (lastValues entries)).mapM (fun e => readEntry e.1 e.2) = .ok k.keys := by
  unfold ofSourcesIn
  constructor
  · intro h
    obtain ⟨first, hlegacy, hset⟩ := Result.bind_eq_ok.1 h
    clear h
    dsimp only at hset
    split at hset
    · cases hset
    · cases hset
    · next text hne =>
      obtain ⟨_, htext, hrest⟩ := Result.bind_eq_ok.1 hset
      obtain rfl := Result.pure_eq_ok.1 htext
      obtain ⟨entries, hentries, hrest⟩ := Result.bind_eq_ok.1 hrest
      obtain ⟨keys, hkeys, hk⟩ := Result.bind_eq_ok.1 hrest
      obtain rfl := Result.pure_eq_ok.1 hk
      exact ⟨text, entries, rfl, hne, hlegacy,
        document_eq_ok_iff_lists.1 (Result.mapError_eq_ok.1 hentries), hkeys⟩
  · rintro ⟨text, entries, rfl, hne, hlegacy, hlists, hkeys⟩
    refine Result.bind_eq_ok.2 ⟨k.legacy, hlegacy, ?_⟩
    dsimp only
    split
    · next heq => cases heq
    · next heq => exact absurd (Option.some.inj heq) hne
    · next text' _ heq =>
      obtain rfl := Option.some.inj heq
      refine Result.bind_eq_ok.2 ⟨text, rfl, Result.bind_eq_ok.2 ⟨entries, ?_, ?_⟩⟩
      · exact Result.mapError_eq_ok.2 (document_eq_ok_iff_lists.2 hlists)
      · exact Result.bind_eq_ok.2 ⟨k.keys, hkeys, rfl⟩

theorem ofSources_eq_ok_iff {set legacy : Option String} {k : KeySet} :
    ofSources set legacy = .ok k ↔ ∃ text entries, set = some text ∧ text ≠ "" ∧
      readLegacy legacy = .ok k.legacy ∧ Lists text entries ∧
      (lastValues entries).mapM (fun e => readEntry e.1 e.2) = .ok k.keys :=
  @ofSourcesIn_eq_ok_iff id set legacy k

section Accepted

variable {set legacy : Option String} {k : KeySet} (h : ofSources set legacy = .ok k)
include h

/-- The key of a name is the one in the text that the set binds it to. -/
theorem find?_name_iff {name : String} {key : RsaKey} :
    k.find? (some name) = some key ↔ ∃ pem, Binds set name pem ∧ keyOf? pem = some key := by
  obtain ⟨text, entries, rfl, _, _, hlists, hkeys⟩ := ofSources_eq_ok_iff.1 h
  have hlookup := lookup_of_mapM hkeys name
  rw [lookup_lastValues] at hlookup
  simp only [find?, hlookup, Option.bind_eq_some_iff, binds_iff hlists]

/-- The key without a name is the one in the legacy text. -/
theorem keyOf?_of_find?_none {key : RsaKey} (hkey : k.find? none = some key) :
    ∃ pem, legacy = some pem ∧ keyOf? pem = some key := by
  obtain ⟨_, _, _, _, hread, _, _⟩ := ofSources_eq_ok_iff.1 h
  unfold readLegacy at hread
  split at hread
  · rw [find?, ← Except.ok.inj hread] at hkey
    cases hkey
  · rw [find?, ← Except.ok.inj hread] at hkey
    cases hkey
  · next pem _ =>
    obtain ⟨key', hkey', heq⟩ := Result.map_eq_ok.1 hread
    rw [find?, ← heq] at hkey
    obtain rfl := Option.some.inj hkey
    exact ⟨pem, rfl, readKey_eq_ok_iff.1 hkey'⟩

end Accepted

end KeySet
end TenantGate
