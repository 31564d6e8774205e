import TenantGate.Proofs.SeriesTranslation
/-!
# Tags among labels

Whatever tags are submitted with a fragment or with a service check, the labels of other kinds are
those without any tags, and of several tags whose keys give one name the last one counts.
-/

namespace TenantGate

/-- A name of the kind that tags give to labels. -/
def isTagName (name : String) : Bool := "ddtag_".toList.isPrefixOf name.toList

/-- The key of a tag as it stands in a name; a tag without a colon has none. -/
def sanitizedKey? (tag : String) : Option String :=
  (LabelMap.splitTag? tag).map fun p => LabelMap.sanitizeName p.1

/-- Another order of tags in which those of one key keep theirs. -/
structure IsReordering (tags tags' : List String) : Prop where
  perm : tags.Perm tags'
  kept : ∀ key, tags.filter (fun tag => sanitizedKey? tag == some key)
    = tags'.filter fun tag => sanitizedKey? tag == some key

/-- How a series hangs on its tags. -/
structure ObeysTags (series : List String → TimeSeries) : Prop where
  others : ∀ tags, (series tags).labels.filter (fun l => !isTagName l.name) = (series []).labels
  tagged : ∀ tags (l : Label), isTagName l.name = true →
    (l ∈ (series tags).labels ↔ l.value ≠ "" ∧ Report.Tags { tags } l.name l.value)
  once : ∀ tags, ((series tags).labels.map (·.name)).Nodup
  reordered : ∀ tags tags', IsReordering tags tags' → series tags = series tags'

namespace LabelMap

def gives (name : String) (tag : String) : Bool := (tagLabel? tag).map (·.1) == some name

theorem gives_eq_false_iff {name tag : String} :
    gives name tag = false ↔ ∀ value, tagLabel? tag ≠ some (name, value) := by
  unfold gives
  cases tagLabel? tag with
  | none => simp
  | some label =>
    obtain ⟨name', value'⟩ := label
    simp

theorem gives_of_tagLabel? {name tag value : String} (h : tagLabel? tag = some (name, value)) :
    gives name tag = true := by
  simp [gives, h]

theorem untagged_filter {tags : List String} {name : String} :
    Untagged (tags.filter (gives name)) name ↔ Untagged tags name := by
  unfold Untagged
  refine ⟨fun h tag htag value hlabel => ?_, fun h tag htag => h tag (List.mem_of_mem_filter htag)⟩
  exact h tag (List.mem_filter.2 ⟨htag, gives_of_tagLabel? hlabel⟩) value hlabel

/-- Only the tags of its own name give a label its value. -/
theorem lastTag_filter {tags : List String} {name value : String} :
    LastTag (tags.filter (gives name)) name value ↔ LastTag tags name value := by
  induction tags with
  | nil => rfl
  | cons tag tags ih =>
    rw [List.filter_cons]
    cases hgives : gives name tag with
    | true => rw [if_pos rfl, lastTag_cons, lastTag_cons, ih, untagged_filter]
    | false =>
      have hother := gives_eq_false_iff.1 hgives value
      rw [if_neg Bool.false_ne_true, ih, lastTag_cons]
      simp [hother]

theorem getElem?_insertTags_congr {m : LabelMap} {tags tags' : List String} {name : String}
    (same : tags.filter (gives name) = tags'.filter (gives name)) :
    (insertTags m tags)[name]? = (insertTags m tags')[name]? := by
  refine Option.ext fun value => ?_
  rw [getElem?_insertTags, getElem?_insertTags, ← lastTag_filter, ← untagged_filter, same,
    lastTag_filter, untagged_filter]

theorem gives_eq_sanitizedKey? (key tag : String) :
    gives ("ddtag_" ++ key) tag = (sanitizedKey? tag == some key) := by
  unfold gives tagLabel? sanitizedKey? tagPrefix
  cases splitTag? tag <;> simp

theorem eq_append_of_isTagName {name : String} (h : isTagName name = true) :
    ∃ key, name = "ddtag_" ++ key := by
  obtain ⟨rest, hrest⟩ := List.isPrefixOf_iff_prefix.1 h
  refine ⟨String.ofList rest, String.toList_inj.1 ?_⟩
  simp [← hrest]

theorem filter_gives_of_isReordering {tags tags' : List String} (h : IsReordering tags tags')
    (name : String) : tags.filter (gives name) = tags'.filter (gives name) := by
  by_cases hname : isTagName name = true
  · obtain ⟨key, rfl⟩ := eq_append_of_isTagName hname
    have same : gives ("ddtag_" ++ key) = fun tag => sanitizedKey? tag == some key :=
      funext (gives_eq_sanitizedKey? key)
    rw [same, h.kept]
  · have none (tags : List String) : tags.filter (gives name) = [] := by
      refine List.filter_eq_nil_iff.2 fun tag _ => Bool.not_eq_true _ ▸ gives_eq_false_iff.2 ?_
      exact untagged_of_other_name (Bool.eq_false_iff.2 hname) [tag] tag List.mem_cons_self
    rw [none, none]

theorem obeysTags_of_untagged {m : LabelMap} (hm : ∀ name, isTagName name = true → m[name]? = none)
    (samples : List Sample) : ObeysTags fun tags => ⟨written (insertTags m tags), samples⟩ where
  others tags := by
    refine labels_eq_of_mem_iff ((pairwise_written _).filter _) (pairwise_written m) fun l => ?_
    rw [List.mem_filter, mem_written, mem_written, getElem?_insertTags, Bool.not_eq_true']
    constructor
    · rintro ⟨⟨hvalue, ⟨before, tag, after, rfl, hlabel, _⟩ | ⟨_, hget⟩⟩, hname⟩
      · have htag : tag ∈ before ++ tag :: after := by simp
        exact absurd hlabel (untagged_of_other_name hname _ tag htag l.value)
      · exact ⟨hvalue, hget⟩
    · rintro ⟨hvalue, hget⟩
      have hname : isTagName l.name = false := by
        refine Bool.eq_false_iff.2 fun hname => ?_
        exact absurd hget (Option.eq_none_iff_forall_ne_some.1 (hm l.name hname) l.value)
      exact ⟨⟨hvalue, .inr ⟨untagged_of_other_name hname tags, hget⟩⟩, hname⟩
  tagged tags l hname := by
    rw [mem_written, getElem?_insertTags, hm l.name hname, ← lastTag_iff]
    simp
  once tags := List.pairwise_map.2 ((pairwise_written _).imp fun h => String.ne_of_lt h)
  reordered tags tags' h := by
    have labels : written (insertTags m tags) = written (insertTags m tags') :=
      written_congr fun name value _ => by
        rw [getElem?_insertTags_congr (filter_gives_of_isReordering h name)]
    rw [labels]

end LabelMap

def Fragment.tagged (f : Fragment) (tags : Option (List String)) : Fragment := { f with tags }

def ServiceCheck.tagged (c : ServiceCheck) (tags : Option (List String)) : ServiceCheck :=
  { c with tags }

theorem Report.Owns.not_isTagName {r : Report} {name value : String} (h : r.Owns name value) :
    isTagName name = false := by
  cases h <;> decide

theorem Fragment.getElem?_ownLabels_of_isTagName (f : Fragment) {name : String}
    (h : isTagName name = true) : f.ownLabels[name]? = none := by
  refine Option.eq_none_iff_forall_ne_some.2 fun value hget => ?_
  rw [(getElem?_ownLabels.1 hget).not_isTagName] at h
  cases h

theorem LabelMap.getElem?_base_of_isTagName (metric host : String) {name : String}
    (h : isTagName name = true) : (base metric host)[name]? = none := by
  refine Option.eq_none_iff_forall_ne_some.2 fun value hget => ?_
  simp only [base, getElem?_insert_eq_some] at hget
  rcases hget with ⟨rfl, _⟩ | ⟨_, ⟨rfl, _⟩ | ⟨_, ⟨rfl, _⟩ | ⟨_, hget⟩⟩⟩
  · exact absurd h (by decide)
  · exact absurd h (by decide)
  · exact absurd h (by decide)
  · simp at hget

/-- Tags neither make a series nor disturb the other labels of one, and they resolve by name. -/
theorem submitted_obey_tags :
    (∀ f : Fragment, f.points.getD [] = [] ∧ (∀ tags, (f.tagged tags).series? = none) ∨
      f.points.getD [] ≠ [] ∧ ∃ series, ObeysTags series ∧
        ∀ tags, (f.tagged tags).series? = some (series (tags.getD []))) ∧
    ∀ c : ServiceCheck, ∃ series, ObeysTags series ∧
      ∀ tags, (c.tagged tags).series = series (tags.getD []) := by
  constructor
  · intro f
    by_cases hpoints : f.points.getD [] = []
    · refine .inl ⟨hpoints, fun tags => ?_⟩
      simp only [Fragment.series?, Fragment.tagged, hpoints]
    · refine .inr ⟨hpoints, _, LabelMap.obeysTags_of_untagged
        (fun name => f.getElem?_ownLabels_of_isTagName) (Fragment.samples (f.points.getD [])), ?_⟩
      exact fun tags => Fragment.series?_of_points (f := f.tagged tags) hpoints
  · intro c
    exact ⟨_, LabelMap.obeysTags_of_untagged
      (fun name => LabelMap.getElem?_base_of_isTagName (c.check.getD "") (c.hostName.getD ""))
      c.series.samples, fun tags => rfl⟩

end TenantGate
