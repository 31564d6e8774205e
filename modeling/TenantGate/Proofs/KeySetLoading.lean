import TenantGate.Proofs.KeyRotation
/-!
# Key sets are loaded whole

A set is accepted if each of its names is bound to a key whose digest the name is.  Then it holds
all of these keys, and the order in which they are written or looked at makes no difference.
-/

namespace TenantGate

theorem Result.exists_mapM_eq_ok {ε α β : Type} {f : α → Except ε β} {l : List α} :
    (∃ r, l.mapM f = .ok r) ↔ ∀ a ∈ l, ∃ b, f a = .ok b := by
  induction l with
  | nil => simp [pure_eq_ok]
  | cons a l ih =>
    rw [List.forall_mem_cons, ← ih]
    simp only [List.mapM_cons, bind_eq_ok, pure_eq_ok]
    constructor
    · rintro ⟨_, b, hb, rest, hrest, rfl⟩
      exact ⟨⟨b, hb⟩, rest, hrest⟩
    · rintro ⟨⟨b, hb⟩, rest, hrest⟩
      exact ⟨_, b, hb, rest, hrest, rfl⟩

namespace KeySet

/-- The members of each name are the same in both, and in the same order. -/
def Reorders (entries entries' : List (String × String)) : Prop :=
  ∀ name, entries.filter (·.1 == name) = entries'.filter (·.1 == name)

theorem lookup_eq_map_find? (name : String) (entries : List (String × String)) :
    entries.lookup name = (entries.find? (·.1 == name)).map (·.2) := by
  induction entries with
  | nil => rfl
  | cons e entries ih =>
    rw [List.lookup_cons, List.find?_cons, BEq.comm]
    cases e.1 == name with
    | true => rfl
    | false => exact ih

theorem Reorders.lookup_reverse {entries entries' : List (String × String)}
    (h : Reorders entries entries') (name : String) :
    entries.reverse.lookup name = entries'.reverse.lookup name := by
  rw [lookup_eq_map_find?, lookup_eq_map_find?, ← List.getLast?_filter, ← List.getLast?_filter,
    h name]

theorem mem_of_lookup {entries : List (String × String)} {name pem : String}
    (h : entries.lookup name = some pem) : (name, pem) ∈ entries := by
  obtain ⟨before, after, rfl, _⟩ := List.lookup_eq_some_iff.1 h
  exact List.mem_append_right _ List.mem_cons_self

theorem mem_lastValues {entries : List (String × String)} {name pem : String} :
    (name, pem) ∈ lastValues entries ↔ entries.reverse.lookup name = some pem := by
  constructor
  · intro h
    simp only [lastValues, List.mem_filterMap, Option.map_eq_some_iff, Prod.mk.injEq] at h
    obtain ⟨_, _, _, hlookup, rfl, rfl⟩ := h
    exact hlookup
  · intro h
    rw [← lookup_lastValues] at h
    exact mem_of_lookup h

/-- Whatever the order, a name is found with its last text. -/
theorem lookup_of_perm {entries order : List (String × String)}
    (h : order.Perm (lastValues entries)) (name : String) :
    order.lookup name = entries.reverse.lookup name := by
  have last {pem : String} (hmem : (name, pem) ∈ order) :
      entries.reverse.lookup name = some pem := mem_lastValues.1 (h.mem_iff.1 hmem)
  cases hlookup : order.lookup name with
  | some pem => exact (last (mem_of_lookup hlookup)).symm
  | none =>
    cases hlast : entries.reverse.lookup name with
    | none => rfl
    | some pem =>
      have hmem := h.mem_iff.2 (mem_lastValues.2 hlast)
      rw [List.lookup_eq_none_iff] at hlookup
      simpa using hlookup _ hmem

theorem nodup_eraseDups (names : List String) : names.eraseDups.Nodup := by
  cases names with
  | nil => exact List.nodup_nil
  | cons name names =>
    rw [List.eraseDups_cons, List.nodup_cons]
    refine ⟨fun hmem => ?_, nodup_eraseDups (names.filter fun n => !n == name)⟩
    simp [List.mem_eraseDups] at hmem
termination_by names.length
decreasing_by simpa [Nat.lt_succ_iff] using List.length_filter_le _ names

theorem map_fst_filterMap {β : Type} (f : String → Option β) (names : List String) :
    ((names.filterMap fun n => (f n).map fun x => (n, x)).map (·.1)).Sublist names := by
  induction names with
  | nil => exact .slnil
  | cons name names ih =>
    rw [List.filterMap_cons]
    cases f name with
    | none => exact ih.cons name
    | some x => exact ih.cons_cons name

theorem nodup_lastValues (entries : List (String × String)) :
    ((lastValues entries).map (·.1)).Nodup :=
  (nodup_eraseDups _).sublist (map_fst_filterMap _ _)

theorem map_fst_of_mapM {entries : List (String × String)} {keys : List (String × RsaKey)}
    (h : entries.mapM (fun e => readEntry e.1 e.2) = .ok keys) :
    keys.map (·.1) = entries.map (·.1) := by
  induction entries generalizing keys with
  | nil =>
    rw [List.mapM_nil] at h
    obtain rfl := Result.pure_eq_ok.1 h
    rfl
  | cons e entries ih =>
    rw [List.mapM_cons] at h
    obtain ⟨k, hk, h⟩ := Result.bind_eq_ok.1 h
    obtain ⟨keys', hkeys, h⟩ := Result.bind_eq_ok.1 h
    obtain rfl := Result.pure_eq_ok.1 h
    obtain ⟨_, _, hname⟩ := readEntry_eq_ok_iff.1 hk
    rw [List.map_cons, List.map_cons, hname, ih hkeys]

/-- The legacy text, if there is one, is a key; the set is an object of texts, and each name that it
binds is the digest of a key. -/
structure Accepts (text : String) (legacy : Option String) : Prop where
  unnamed : ∀ pem, legacy = some pem → pem ≠ "" → ∃ key, keyOf? pem = some key
  object : ∃ entries, Lists text entries
  named : ∀ name pem, Binds (some text) name pem →
    (∃ key, keyOf? pem = some key) ∧ name = Bytes.hex (Sha1.hash (Bytes.ofText (Text.trim pem)))

/-- The keys are those of the texts that the sources name, all of them. -/
structure Holds (k : KeySet) (text : String) (legacy : Option String) : Prop where
  once : (k.keys.map (·.1)).Nodup
  named : ∀ name key, k.find? (some name) = some key ↔
    ∃ pem, Binds (some text) name pem ∧ keyOf? pem = some key
  namedAll : ∀ name pem, Binds (some text) name pem → ∃ key, k.find? (some name) = some key
  unnamed : ∀ key, k.find? none = some key ↔
    ∃ pem, legacy = some pem ∧ pem ≠ "" ∧ keyOf? pem = some key
  unnamedAll : ∀ pem, legacy = some pem → pem ≠ "" → ∃ key, k.find? none = some key

theorem readLegacy_cases (legacy : Option String) :
    (readLegacy legacy = .ok none ∧ ∀ pem, legacy = some pem → pem = "") ∨
      ∃ pem, legacy = some pem ∧ pem ≠ "" ∧
        readLegacy legacy = (readKey "legacy" pem).map some := by
  unfold readLegacy
  split
  · exact .inl ⟨rfl, nofun⟩
  · exact .inl ⟨rfl, fun pem hpem => (Option.some.inj hpem).symm⟩
  · next pem hne => exact .inr ⟨pem, rfl, hne, rfl⟩

theorem exists_readLegacy_eq_ok {legacy : Option String} :
    (∃ found, readLegacy legacy = .ok found) ↔
      ∀ pem, legacy = some pem → pem ≠ "" → ∃ key, keyOf? pem = some key := by
  obtain ⟨hread, hempty⟩ | ⟨pem, rfl, hne, hread⟩ := readLegacy_cases legacy
  · rw [hread]
    exact ⟨fun _ pem hpem hne => absurd (hempty pem hpem) hne, fun _ => ⟨none, rfl⟩⟩
  · rw [hread]
    constructor
    · rintro ⟨found, h⟩ pem' hpem _
      obtain rfl := Option.some.inj hpem
      obtain ⟨key, hkey, _⟩ := Result.map_eq_ok.1 h
      exact ⟨key, readKey_eq_ok_iff.1 hkey⟩
    · intro h
      obtain ⟨key, hkey⟩ := h pem rfl hne
      exact ⟨some key, Result.map_eq_ok.2 ⟨key, readKey_eq_ok_iff.2 hkey, rfl⟩⟩

theorem eq_some_iff_of_readLegacy {legacy : Option String} {found : Option RsaKey}
    (h : readLegacy legacy = .ok found) (key : RsaKey) :
    found = some key ↔ ∃ pem, legacy = some pem ∧ pem ≠ "" ∧ keyOf? pem = some key := by
  obtain ⟨hread, hempty⟩ | ⟨pem, rfl, hne, hread⟩ := readLegacy_cases legacy
  · obtain rfl := Except.ok.inj (hread.symm.trans h)
    exact ⟨nofun, fun ⟨pem, hpem, hne, _⟩ => absurd (hempty pem hpem) hne⟩
  · rw [hread] at h
    obtain ⟨read, hkey, rfl⟩ := Result.map_eq_ok.1 h
    rw [readKey_eq_ok_iff] at hkey
    simp [hne, hkey]

theorem Lists.ne_empty {text : String} {entries : List (String × String)}
    (h : Lists text entries) : text ≠ "" := by
  rintro rfl
  have read := document_eq_ok_iff_lists.2 h
  cases read

section Orders

variable {order : List (String × String) → List (String × String)}
  (horder : ∀ entries, (order entries).Perm entries)
include horder

theorem exists_mapM_eq_ok_iff {text : String} {entries : List (String × String)}
    (h : Lists text entries) :
    (∃ keys, (order (lastValues entries)).mapM (fun e => readEntry e.1 e.2) = .ok keys) ↔
      ∀ name pem, Binds (some text) name pem → (∃ key, keyOf? pem = some key) ∧
        name = Bytes.hex (Sha1.hash (Bytes.ofText (Text.trim pem))) := by
  rw [Result.exists_mapM_eq_ok]
  constructor
  · intro hread name pem hbinds
    have hmem : (name, pem) ∈ order (lastValues entries) :=
      (horder _).mem_iff.2 (mem_lastValues.2 ((binds_iff h).1 hbinds))
    obtain ⟨e, he⟩ := hread _ hmem
    obtain ⟨hkey, hname, _⟩ := readEntry_eq_ok_iff.1 he
    exact ⟨⟨e.2, hkey⟩, hname.symm⟩
  · rintro hbound ⟨name, pem⟩ hmem
    have hbinds := (binds_iff h).2 (mem_lastValues.1 ((horder _).mem_iff.1 hmem))
    obtain ⟨⟨key, hkey⟩, hname⟩ := hbound name pem hbinds
    exact ⟨(name, key), readEntry_eq_ok_iff.2 ⟨hkey, hname.symm, rfl⟩⟩

theorem accepts_iff {text : String} {legacy : Option String} :
    (∃ k, ofSourcesIn order (some text) legacy = .ok k) ↔ Accepts text legacy := by
  constructor
  · rintro ⟨k, h⟩
    obtain ⟨text', entries, htext, _, hlegacy, hlists, hkeys⟩ := ofSourcesIn_eq_ok_iff.1 h
    obtain rfl := Option.some.inj htext
    exact ⟨exists_readLegacy_eq_ok.1 ⟨_, hlegacy⟩, ⟨entries, hlists⟩,
      (exists_mapM_eq_ok_iff horder hlists).1 ⟨_, hkeys⟩⟩
  · rintro ⟨hlegacy, ⟨entries, hlists⟩, hbound⟩
    obtain ⟨found, hfound⟩ := exists_readLegacy_eq_ok.2 hlegacy
    obtain ⟨keys, hkeys⟩ := (exists_mapM_eq_ok_iff horder hlists).2 hbound
    exact ⟨⟨keys, found⟩, ofSourcesIn_eq_ok_iff.2
      ⟨text, entries, rfl, hlists.ne_empty, hfound, hlists, hkeys⟩⟩

theorem holds_of_ofSourcesIn {text : String} {legacy : Option String} {k : KeySet}
    (h : ofSourcesIn order (some text) legacy = .ok k) : Holds k text legacy := by
  obtain ⟨hlegacy, _, hbound⟩ := (accepts_iff horder).1 ⟨k, h⟩
  obtain ⟨text', entries, htext, _, hread, hlists, hkeys⟩ := ofSourcesIn_eq_ok_iff.1 h
  obtain rfl := Option.some.inj htext
  have hfind (name : String) (key : RsaKey) : k.find? (some name) = some key ↔
      ∃ pem, Binds (some text) name pem ∧ keyOf? pem = some key := by
    rw [find?, lookup_of_mapM hkeys, lookup_of_perm (horder _), Option.bind_eq_some_iff]
    simp only [binds_iff hlists]
  have hnone := eq_some_iff_of_readLegacy hread
  constructor
  case once =>
    rw [map_fst_of_mapM hkeys]
    exact ((horder _).map _).nodup_iff.2 (nodup_lastValues entries)
  case named => exact hfind
  case namedAll =>
    intro name pem hbinds
    obtain ⟨⟨key, hkey⟩, _⟩ := hbound name pem hbinds
    exact ⟨key, (hfind name key).2 ⟨pem, hbinds, hkey⟩⟩
  case unnamed => exact hnone
  case unnamedAll =>
    intro pem hpem hne
    obtain ⟨key, hkey⟩ := hlegacy pem hpem hne
    exact ⟨key, (hnone key).2 ⟨pem, hpem, hne, hkey⟩⟩

end Orders

theorem Reorders.binds_iff {text text' : String} {entries entries' : List (String × String)}
    (h : Lists text entries) (h' : Lists text' entries') (hreorders : Reorders entries entries')
    (name pem : String) : Binds (some text) name pem ↔ Binds (some text') name pem := by
  rw [KeySet.binds_iff h, KeySet.binds_iff h', hreorders.lookup_reverse]

theorem Accepts.of_reorders {text text' : String} {entries entries' : List (String × String)}
    {legacy : Option String} (h : Lists text entries) (h' : Lists text' entries')
    (hreorders : Reorders entries entries') (haccepts : Accepts text legacy) :
    Accepts text' legacy := by
  refine ⟨haccepts.unnamed, ⟨entries', h'⟩, fun name pem hbinds => ?_⟩
  exact haccepts.named name pem ((hreorders.binds_iff h h' name pem).2 hbinds)

theorem Holds.find?_eq {text text' : String} {entries entries' : List (String × String)}
    {legacy : Option String} {k k' : KeySet} (h : Lists text entries) (h' : Lists text' entries')
    (hreorders : Reorders entries entries') (hk : Holds k text legacy) (hk' : Holds k' text' legacy)
    (name : Option String) : k.find? name = k'.find? name := by
  refine Option.ext fun key => ?_
  cases name with
  | none => rw [hk.unnamed, hk'.unnamed]
  | some name =>
    rw [hk.named, hk'.named]
    simp only [hreorders.binds_iff h h' name]

/-- Sources give a set of keys exactly if all of them can be accepted.  The set then holds all their
keys, and neither the order of the names in the text nor the one in which they are looked at makes a
difference. -/
theorem loads_keys (text : String) (legacy : Option String) :
    ((∃ k, ofSources (some text) legacy = .ok k) ↔ Accepts text legacy) ∧
    (∀ k, ofSources (some text) legacy = .ok k → Holds k text legacy) ∧
    ∀ order : List (String × String) → List (String × String),
      (∀ entries, (order entries).Perm entries) →
      ∀ text' entries entries', Lists text entries → Lists text' entries' →
        Reorders entries entries' →
        ((∃ k, ofSources (some text) legacy = .ok k) ↔
          ∃ k', ofSourcesIn order (some text') legacy = .ok k') ∧
        ∀ k k', ofSources (some text) legacy = .ok k →
          ofSourcesIn order (some text') legacy = .ok k' →
          Holds k' text' legacy ∧ ∀ name, k.find? name = k'.find? name := by
  have hid (entries : List (String × String)) : (id entries).Perm entries := .refl entries
  rw [← ofSourcesIn_id]
  refine ⟨accepts_iff hid, fun k => holds_of_ofSourcesIn hid, ?reordered⟩
  intro order horder text' entries entries' h h' hreorders
  have hreorders' : Reorders entries' entries := fun name => (hreorders name).symm
  refine ⟨?_, fun k k' hk hk' => ?_⟩
  · rw [accepts_iff hid, accepts_iff horder]
    exact ⟨.of_reorders h h' hreorders, .of_reorders h' h hreorders'⟩
  · have hholds := holds_of_ofSourcesIn horder hk'
    exact ⟨hholds, (holds_of_ofSourcesIn hid hk).find?_eq h h' hreorders hholds⟩

namespace Repeated

open Json Token.Rotation

def void : String × String := (first.1, "")

def text : String :=
  "\x7b\"2f84ebd15d3c6d614b9a4ae2c7192de2aaa4b702\":\"\","
    ++ "\"ff5058efd1c2f652739ae14509a3d0a0ee5a923d\":\"-----BEGIN PUBLIC KEY-----\\n"
    ++ "MBowDQYJKoZIhvcNAQEBBQADCQAwBgIBFQIBBQ==\\n-----END PUBLIC KEY-----\","
    ++ "\"2f84ebd15d3c6d614b9a4ae2c7192de2aaa4b702\":\"-----BEGIN PUBLIC KEY-----\\n"
    ++ "MBowDQYJKoZIhvcNAQEBBQADCQAwBgIBDwIBAw==\\n-----END PUBLIC KEY-----\"\x7d"

def reordered : String :=
  "\x7b\"ff5058efd1c2f652739ae14509a3d0a0ee5a923d\":\"-----BEGIN PUBLIC KEY-----\\n"
    ++ "MBowDQYJKoZIhvcNAQEBBQADCQAwBgIBFQIBBQ==\\n-----END PUBLIC KEY-----\","
    ++ "\"2f84ebd15d3c6d614b9a4ae2c7192de2aaa4b702\":\"\","
    ++ "\"2f84ebd15d3c6d614b9a4ae2c7192de2aaa4b702\":\"-----BEGIN PUBLIC KEY-----\\n"
    ++ "MBowDQYJKoZIhvcNAQEBBQADCQAwBgIBDwIBAw==\\n-----END PUBLIC KEY-----\"\x7d"

def keys : KeySet := ⟨[(first.1, ⟨15, 3⟩), (second.1, ⟨21, 5⟩)], some ⟨21, 5⟩⟩

theorem lists_texts :
    Lists text [void, second, first] ∧ Lists reordered [second, void, first] := by
  have voided := writes_entry void (by decide) (by decide)
  have added := writes_entry second (by decide) (by decide)
  have kept := writes_entry first (by decide) (by decide)
  refine ⟨⟨_, [], ?_, .object blank_nil (.moreMembers voided blank_nil (.moreMembers added blank_nil
    (.lastMember kept))) blank_nil, blank_nil⟩, ⟨_, [], ?_, .object blank_nil (.moreMembers added
    blank_nil (.moreMembers voided blank_nil (.lastMember kept))) blank_nil, blank_nil⟩⟩
  · decide +kernel
  · decide +kernel

theorem reorders : Reorders [void, second, first] [second, void, first] := by
  intro name
  have hne : void.1 ≠ second.1 := by decide
  by_cases hname : void.1 = name
  · have hsecond : second.1 ≠ name := hname ▸ hne.symm
    simp [hname, hsecond]
  · simp [hname, List.filter_cons]

theorem ofSources_text : ofSources (some text) (some second.2) = .ok keys := by
  obtain ⟨readFirst, readSecond, legacy⟩ := reads_keys
  have entries : lastValues [void, second, first] = [first, second] := by decide
  refine ofSources_eq_ok_iff.2
    ⟨text, [void, second, first], rfl, by decide, legacy, lists_texts.1, ?_⟩
  simp only [entries, List.mapM_cons, List.mapM_nil, readFirst, readSecond]
  rfl

end Repeated

/-- The last text of a name counts, which gives the same keys in the other order, looked at from its
end. -/
theorem loads_keys_of_repeated_name :
    Accepts Repeated.text (some Token.Rotation.second.2) ∧
      Holds Repeated.keys Repeated.text (some Token.Rotation.second.2) ∧
      ∃ k', ofSourcesIn List.reverse (some Repeated.reordered) (some Token.Rotation.second.2) =
          .ok k' ∧ ∀ name, Repeated.keys.find? name = k'.find? name := by
  obtain ⟨accepts, holds, reordered⟩ := loads_keys Repeated.text (some Token.Rotation.second.2)
  have loaded := Repeated.ofSources_text
  obtain ⟨same, equal⟩ := reordered List.reverse List.reverse_perm Repeated.reordered _ _
    Repeated.lists_texts.1 Repeated.lists_texts.2 Repeated.reorders
  obtain ⟨k', hk'⟩ := same.1 ⟨_, loaded⟩
  exact ⟨accepts.1 ⟨_, loaded⟩, holds _ loaded, k', hk', (equal _ _ loaded hk').2⟩

end KeySet
end TenantGate
