import Mathlib.Data.List.Sort
import TenantGate.Series.Submission
/-!
# What a report stands for

Each report with a point stands for one series and for no other: its labels are known by rules that
leave out what is empty, and its samples are its points in the order of their times.
-/

namespace TenantGate

/-- What the agent reports.  Each part may be empty, and an interval of zero is none. -/
structure Report where
  metric : String := ""
  host : String := ""
  device : String := ""
  metricType : String := ""
  sourceTypeName : String := ""
  interval : Int := 0
  tags : List String := []
  points : List Point := []
  deriving DecidableEq, Repr

/-- A part of a fragment that is not given is empty. -/
def Fragment.report (f : Fragment) : Report where
  metric := f.metric.getD ""
  host := f.host.getD ""
  device := f.device.getD ""
  metricType := f.metricType.getD ""
  sourceTypeName := f.sourceTypeName.getD ""
  interval := f.interval.getD 0
  tags := f.tags.getD []
  points := f.points.getD []

/-- A tag is split at its first colon. -/
def SplitsInto (tag key value : String) : Prop := tag = key ++ ":" ++ value ∧ ':' ∉ key.toList

namespace Report

open LabelMap

/-- The labels of a report apart from its tags, the empty ones among them. -/
inductive Owns (r : Report) : (name value : String) → Prop
  | marked {rest : String} (h : r.metric = "n_o_i_n_d_e_x." ++ rest) :
      Owns r "__name__" (sanitizeName rest)
  | metric (h : ∀ rest, r.metric ≠ "n_o_i_n_d_e_x." ++ rest) :
      Owns r "__name__" (sanitizeName r.metric)
  | host : Owns r "instance" r.host
  | job : Owns r "job" "ddagent"
  | device : Owns r "device" r.device
  | metricType : Owns r "type" r.metricType
  | sourceTypeName : Owns r "source_type_name" r.sourceTypeName
  | interval (h : r.interval ≠ 0) : Owns r "interval" (toString r.interval)

/-- A label of a tag.  Of several tags that give labels of one name only the last one counts. -/
def Tags (r : Report) (name value : String) : Prop :=
  ∃ before tag after key, r.tags = before ++ tag :: after ∧ SplitsInto tag key value ∧
    name = "ddtag_" ++ sanitizeName key ∧
    ∀ later ∈ after, ∀ key' value', SplitsInto later key' value' →
      sanitizeName key' ≠ sanitizeName key

def Holds (r : Report) (l : Label) : Prop :=
  l.value ≠ "" ∧ (r.Owns l.name l.value ∨ r.Tags l.name l.value)

end Report

/-- Points in the order of their times; points of one time keep their order. -/
structure IsStableSort (points sorted : List Point) : Prop where
  ordered : sorted.Pairwise fun p q => p.seconds ≤ q.seconds
  stable : ∀ t, sorted.filter (fun p => p.seconds == t) = points.filter fun p => p.seconds == t

structure Report.IsSeries (r : Report) (s : TimeSeries) : Prop where
  ordered : s.labels.Pairwise fun l m => l.name < m.name
  labels : ∀ l, l ∈ s.labels ↔ r.Holds l
  samples : ∃ sorted, IsStableSort r.points sorted ∧
    s.samples = sorted.map fun p => ⟨clampInt64 (p.seconds * 1000), p.value⟩

/-- The series of reports, in their order; a report without points has none. -/
def IsTranslation (reports : List Report) (series : List TimeSeries) : Prop :=
  List.Forall₂ Report.IsSeries (reports.filter fun r => !r.points.isEmpty) series

theorem Point.notLater_trans (p q r : Point) (hpq : decide (p.seconds ≤ q.seconds) = true)
    (hqr : decide (q.seconds ≤ r.seconds) = true) : decide (p.seconds ≤ r.seconds) = true := by
  simp only [decide_eq_true_eq] at *
  exact Int.le_trans hpq hqr

theorem Point.notLater_total (p q : Point) :
    (decide (p.seconds ≤ q.seconds) || decide (q.seconds ≤ p.seconds)) = true := by
  simpa using Int.le_total p.seconds q.seconds

theorem isStableSort_mergeSort (points : List Point) :
    IsStableSort points (points.mergeSort fun p q => p.seconds ≤ q.seconds) := by
  have ordered := List.pairwise_mergeSort Point.notLater_trans Point.notLater_total points
  refine ⟨ordered.imp of_decide_eq_true, fun t => ?_⟩
  -- The points of one time are in order already, so sorting keeps them as a sublist.
  have level : (points.filter fun p => p.seconds == t).Pairwise fun p q =>
      decide (p.seconds ≤ q.seconds) = true := by
    refine List.pairwise_of_forall_mem_list fun p hp q hq => ?_
    simp only [List.mem_filter, beq_iff_eq] at hp hq
    simp [hp.2, hq.2]
  have kept := (List.sublist_mergeSort Point.notLater_trans Point.notLater_total level
    List.filter_sublist).filter (fun p => p.seconds == t)
  rw [List.filter_filter] at kept
  simp only [Bool.and_self] at kept
  refine (kept.eq_of_length ?_).symm
  rw [← List.countP_eq_length_filter, ← List.countP_eq_length_filter]
  exact ((List.mergeSort_perm points _).countP_eq _).symm

theorem mem_iff_of_filter_eq {points points' : List Point}
    (same : ∀ t, points.filter (fun p => p.seconds == t)
      = points'.filter fun p => p.seconds == t) (p : Point) : p ∈ points ↔ p ∈ points' := by
  have := congrArg (p ∈ ·) (same p.seconds)
  simpa using this

/-- Lists in the order of time are equal if they have the same points of each time. -/
theorem eq_of_ordered {points points' : List Point}
    (h : points.Pairwise fun p q => p.seconds ≤ q.seconds)
    (h' : points'.Pairwise fun p q => p.seconds ≤ q.seconds)
    (same : ∀ t, points.filter (fun p => p.seconds == t)
      = points'.filter fun p => p.seconds == t) : points = points' := by
  induction points generalizing points' with
  | nil =>
    cases points' with
    | nil => rfl
    | cons q qs => exact absurd ((mem_iff_of_filter_eq same q).2 List.mem_cons_self) List.not_mem_nil
  | cons p ps ih =>
    cases points' with
    | nil => exact absurd ((mem_iff_of_filter_eq same p).1 List.mem_cons_self) List.not_mem_nil
    | cons q qs =>
      obtain ⟨hp, hps⟩ := List.pairwise_cons.1 h
      obtain ⟨hq, hqs⟩ := List.pairwise_cons.1 h'
      have first : p.seconds = q.seconds := by
        refine Int.le_antisymm ?_ ?_
        · rcases List.mem_cons.1 ((mem_iff_of_filter_eq same q).2 List.mem_cons_self) with heq | hmem
          · rw [heq]
          · exact hp q hmem
        · rcases List.mem_cons.1 ((mem_iff_of_filter_eq same p).1 List.mem_cons_self) with heq | hmem
          · rw [heq]
          · exact hq p hmem
      have head : p = q := by
        have := same p.seconds
        simp only [List.filter_cons, beq_self_eq_true, if_true, ← first] at this
        exact (List.cons.inj this).1
      subst head
      have tails : ∀ t, ps.filter (fun p => p.seconds == t) = qs.filter fun p => p.seconds == t := by
        intro t
        have := same t
        simp only [List.filter_cons] at this
        split at this
        · exact (List.cons.inj this).2
        · exact this
      rw [ih hps hqs tails]

theorem IsStableSort.unique {points sorted sorted' : List Point} (h : IsStableSort points sorted)
    (h' : IsStableSort points sorted') : sorted' = sorted :=
  eq_of_ordered h'.ordered h.ordered fun t => (h'.stable t).trans (h.stable t).symm

theorem splitTag?_eq_some_iff {tag key value : String} :
    LabelMap.splitTag? tag = some (key, value) ↔ SplitsInto tag key value := by
  unfold LabelMap.splitTag?
  constructor
  · intro h
    split at h
    · cases h
    · next c rest hdrop =>
      cases h
      have colon : c = ':' := by
        have hne : tag.toList.dropWhile (· != ':') ≠ [] := by simp [hdrop]
        have := List.head_dropWhile_not (· != ':') hne
        simpa [hdrop] using this
      have whole := List.takeWhile_append_dropWhile (p := (· != ':')) (l := tag.toList)
      rw [hdrop, colon] at whole
      refine ⟨String.toList_inj.1 ?_, ?_⟩
      · simpa using whole.symm
      · intro hmem
        rw [String.toList_ofList] at hmem
        simpa using List.all_eq_true.1 List.all_takeWhile ':' hmem
  · rintro ⟨rfl, hkey⟩
    have before : ∀ c ∈ key.toList, (c != ':') = true := by
      intro c hc
      exact bne_iff_ne.2 fun heq => hkey (heq ▸ hc)
    simp only [String.toList_append, List.append_assoc]
    rw [List.dropWhile_append_of_pos before, List.takeWhile_append_of_pos before]
    simp

theorem tagLabel?_eq_some_iff {tag name value : String} :
    LabelMap.tagLabel? tag = some (name, value) ↔
      ∃ key, SplitsInto tag key value ∧ name = "ddtag_" ++ LabelMap.sanitizeName key := by
  simp only [LabelMap.tagLabel?, Option.map_eq_some_iff, Prod.exists, Prod.mk.injEq,
    splitTag?_eq_some_iff]
  constructor
  · rintro ⟨key, _, splits, rfl, rfl⟩
    exact ⟨key, splits, rfl⟩
  · rintro ⟨key, splits, rfl⟩
    exact ⟨key, value, splits, rfl, rfl⟩

/-- No tag gives a label of the name. -/
def Untagged (tags : List String) (name : String) : Prop :=
  ∀ tag ∈ tags, ∀ value, LabelMap.tagLabel? tag ≠ some (name, value)

/-- The last tag that gives a label of the name gives it the value. -/
def LastTag (tags : List String) (name value : String) : Prop :=
  ∃ before tag after, tags = before ++ tag :: after ∧
    LabelMap.tagLabel? tag = some (name, value) ∧ Untagged after name

theorem untagged_cons {tag : String} {tags : List String} {name : String} :
    Untagged (tag :: tags) name ↔
      (∀ value, LabelMap.tagLabel? tag ≠ some (name, value)) ∧ Untagged tags name := by
  simp [Untagged]

theorem lastTag_cons {tag : String} {tags : List String} {name value : String} :
    LastTag (tag :: tags) name value ↔ LastTag tags name value ∨
      Untagged tags name ∧ LabelMap.tagLabel? tag = some (name, value) := by
  constructor
  · rintro ⟨before, found, after, heq, hlabel, hlast⟩
    cases before with
    | nil =>
      cases heq
      exact .inr ⟨hlast, hlabel⟩
    | cons first before =>
      cases heq
      exact .inl ⟨before, found, after, rfl, hlabel, hlast⟩
  · rintro (⟨before, found, after, rfl, hlabel, hlast⟩ | ⟨hlast, hlabel⟩)
    · exact ⟨tag :: before, found, after, rfl, hlabel, hlast⟩
    · exact ⟨[], tag, tags, rfl, hlabel, hlast⟩

theorem getElem?_insertTags {m : LabelMap} {tags : List String} {name value : String} :
    (LabelMap.insertTags m tags)[name]? = some value ↔
      LastTag tags name value ∨ Untagged tags name ∧ m[name]? = some value := by
  induction tags generalizing m with
  | nil => simp [LabelMap.insertTags, LastTag, Untagged]
  | cons tag tags ih =>
    rw [lastTag_cons, untagged_cons, or_assoc]
    cases hlabel : LabelMap.tagLabel? tag with
    | none =>
      have skipped : LabelMap.insertTags m (tag :: tags) = LabelMap.insertTags m tags := by
        simp [LabelMap.insertTags, hlabel]
      rw [skipped, ih]
      simp
    | some label =>
      have inserted : LabelMap.insertTags m (tag :: tags)
          = LabelMap.insertTags (m.insert label.1 label.2) tags := by
        simp [LabelMap.insertTags, hlabel]
      rw [inserted, ih, Std.TreeMap.getElem?_insert]
      obtain ⟨name', value'⟩ := label
      simp only [Std.LawfulEqCmp.compare_eq_iff_eq, Option.some.injEq, Prod.mk.injEq]
      by_cases hname : name' = name <;> simp [hname]

theorem untagged_iff {tags : List String} {key : String} :
    Untagged tags ("ddtag_" ++ LabelMap.sanitizeName key) ↔
      ∀ tag ∈ tags, ∀ key' value', SplitsInto tag key' value' →
        LabelMap.sanitizeName key' ≠ LabelMap.sanitizeName key := by
  refine forall₂_congr fun tag _ => ⟨fun h key' value' splits heq => ?_, fun h value' hlabel => ?_⟩
  · exact h value' (tagLabel?_eq_some_iff.2 ⟨key', splits, by rw [heq]⟩)
  · obtain ⟨key', splits, heq⟩ := tagLabel?_eq_some_iff.1 hlabel
    exact h key' value' splits ((String.append_right_inj _).1 heq).symm

theorem lastTag_iff {r : Report} {name value : String} :
    LastTag r.tags name value ↔ r.Tags name value := by
  constructor
  · rintro ⟨before, tag, after, htags, hlabel, hlast⟩
    obtain ⟨key, splits, rfl⟩ := tagLabel?_eq_some_iff.1 hlabel
    exact ⟨before, tag, after, key, htags, splits, rfl, untagged_iff.1 hlast⟩
  · rintro ⟨before, tag, after, key, htags, splits, rfl, hlast⟩
    exact ⟨before, tag, after, htags, tagLabel?_eq_some_iff.2 ⟨key, splits, rfl⟩,
      untagged_iff.2 hlast⟩

theorem untagged_of_other_name {name : String}
    (h : ("ddtag_".toList.isPrefixOf name.toList) = false) (tags : List String) :
    Untagged tags name := by
  intro tag _ value hlabel
  obtain ⟨key, _, rfl⟩ := tagLabel?_eq_some_iff.1 hlabel
  simp at h

theorem Report.Owns.untagged {r : Report} {name value : String} (h : r.Owns name value)
    (tags : List String) : Untagged tags name := by
  cases h <;> exact untagged_of_other_name (by decide) tags

theorem unmarked_append (rest : String) : Fragment.unmarked ("n_o_i_n_d_e_x." ++ rest) = rest := by
  have found : Fragment.indexMark.isPrefixOf? ("n_o_i_n_d_e_x." ++ rest).toList
      = some rest.toList := by
    rw [List.isPrefixOf?_eq_some_iff_append_eq, String.toList_append]
    rfl
  rw [Fragment.unmarked, found]
  exact String.ofList_toList

theorem unmarked_of_ne {metric : String} (h : ∀ rest, metric ≠ "n_o_i_n_d_e_x." ++ rest) :
    Fragment.unmarked metric = metric := by
  unfold Fragment.unmarked
  split
  · next rest hrest =>
    rw [List.isPrefixOf?_eq_some_iff_append_eq] at hrest
    have mark : "n_o_i_n_d_e_x.".toList = Fragment.indexMark := rfl
    refine absurd (String.toList_inj.1 ?_) (h (String.ofList rest))
    rw [← hrest, String.toList_append, mark, String.toList_ofList]
  · rfl

theorem owns_metric (r : Report) :
    r.Owns "__name__" (LabelMap.sanitizeName (Fragment.unmarked r.metric)) := by
  by_cases h : ∃ rest, r.metric = "n_o_i_n_d_e_x." ++ rest
  · obtain ⟨rest, hrest⟩ := h
    rw [hrest, unmarked_append]
    exact .marked hrest
  · have none : ∀ rest, r.metric ≠ "n_o_i_n_d_e_x." ++ rest := fun rest heq => h ⟨rest, heq⟩
    rw [unmarked_of_ne none]
    exact .metric none

theorem interval?_of_ne {f : Fragment} (h : f.report.interval ≠ 0) :
    f.interval? = some f.report.interval := by
  cases hi : f.interval with
  | none => simp [Fragment.report, hi] at h
  | some n =>
    have hn : n ≠ 0 := by simpa [Fragment.report, hi] using h
    simp [Fragment.interval?, Fragment.report, hi, hn]

theorem interval?_of_eq {f : Fragment} (h : f.report.interval = 0) : f.interval? = none := by
  cases hi : f.interval with
  | none => simp [Fragment.interval?, hi]
  | some n =>
    have hn : n = 0 := by simpa [Fragment.report, hi] using h
    simp [Fragment.interval?, hi, hn]

theorem getElem?_insert_eq_some {m : LabelMap} {name name' value value' : String} :
    (m.insert name' value')[name]? = some value ↔
      name' = name ∧ value' = value ∨ name' ≠ name ∧ m[name]? = some value := by
  rw [Std.TreeMap.getElem?_insert]
  simp only [Std.LawfulEqCmp.compare_eq_iff_eq]
  split <;> simp_all

namespace Fragment

def timed (f : Fragment) (labels : LabelMap) : LabelMap :=
  match f.interval? with
  | some n => labels.insert "interval" (toString n)
  | none => labels

def ownLabels (f : Fragment) : LabelMap :=
  (((f.timed (LabelMap.base (unmarked f.report.metric) f.report.host)).insert
    "device" f.report.device).insert "type" f.report.metricType).insert
      "source_type_name" f.report.sourceTypeName

theorem labels_eq (f : Fragment) : f.labels = LabelMap.insertTags f.ownLabels f.report.tags := rfl

theorem getElem?_timed {f : Fragment} {m : LabelMap} {name value : String} :
    (f.timed m)[name]? = some value ↔
      (f.report.interval ≠ 0 ∧ "interval" = name) ∧ toString f.report.interval = value ∨
        ¬(f.report.interval ≠ 0 ∧ "interval" = name) ∧ m[name]? = some value := by
  unfold timed
  by_cases h : f.report.interval = 0
  · simp [interval?_of_eq h, h]
  · simp only [interval?_of_ne h, getElem?_insert_eq_some]
    simp [h]

theorem getElem?_ownLabels {f : Fragment} {name value : String} :
    f.ownLabels[name]? = some value ↔ f.report.Owns name value := by
  simp only [ownLabels, LabelMap.base, getElem?_insert_eq_some, getElem?_timed]
  constructor
  · rintro (⟨rfl, rfl⟩ | ⟨_, ⟨rfl, rfl⟩ | ⟨_, ⟨rfl, rfl⟩ | ⟨_, ⟨⟨h, rfl⟩, rfl⟩ | ⟨_, ⟨rfl, rfl⟩ |
      ⟨_, ⟨rfl, rfl⟩ | ⟨_, ⟨rfl, rfl⟩ | ⟨_, h⟩⟩⟩⟩⟩⟩⟩)
    · exact .sourceTypeName
    · exact .metricType
    · exact .device
    · exact .interval h
    · exact .job
    · exact .host
    · exact owns_metric f.report
    · simp at h
  · intro h
    cases h with
    | marked h => simp [h, unmarked_append]
    | metric h => simp [unmarked_of_ne h]
    | host | job | device | metricType | sourceTypeName => simp [LabelMap.job]
    | interval h => simp [h]

theorem getElem?_labels {f : Fragment} {name value : String} :
    f.labels[name]? = some value ↔ f.report.Owns name value ∨ f.report.Tags name value := by
  rw [labels_eq, getElem?_insertTags, getElem?_ownLabels, lastTag_iff, or_comm]
  exact or_congr_left ⟨fun h => h.2, fun h => ⟨h.untagged _, h⟩⟩

end Fragment

theorem LabelMap.mem_written {labels : LabelMap} {l : Label} :
    l ∈ written labels ↔ l.value ≠ "" ∧ labels[l.name]? = some l.value := by
  obtain ⟨name, value⟩ := l
  simp only [written, List.mem_map, List.mem_filter, Prod.exists, Label.mk.injEq,
    Std.TreeMap.mem_toList_iff_getElem?_eq_some, Bool.not_eq_true', String.isEmpty_eq_false_iff]
  constructor
  · rintro ⟨_, _, ⟨hget, hvalue⟩, rfl, rfl⟩
    exact ⟨hvalue, hget⟩
  · rintro ⟨hvalue, hget⟩
    exact ⟨name, value, ⟨hget, hvalue⟩, rfl, rfl⟩

theorem LabelMap.pairwise_written (labels : LabelMap) :
    (written labels).Pairwise fun l m => l.name < m.name := by
  unfold written
  refine List.pairwise_map.2 (List.Pairwise.filter _ ?_)
  have ordered : labels.toList.Pairwise fun p q => compare p.1 q.1 = .lt :=
    Std.TreeMap.ordered_keys_toList
  exact ordered.imp fun h => compareOfLessAndEq_eq_lt.1 h

theorem labels_eq_of_mem_iff {labels labels' : List Label}
    (h : labels.Pairwise fun l m => l.name < m.name)
    (h' : labels'.Pairwise fun l m => l.name < m.name) (same : ∀ l, l ∈ labels ↔ l ∈ labels') :
    labels = labels' := by
  have irrefl : Std.Irrefl fun l m : Label => l.name < m.name := ⟨fun l => String.lt_irrefl l.name⟩
  have antisymm : Std.Antisymm fun l m : Label => l.name < m.name :=
    ⟨fun l m hlm hml => absurd (String.lt_trans hlm hml) (String.lt_irrefl l.name)⟩
  exact h.eq_of_mem_iff h' same

/-- Only the values that are not empty count for what is written. -/
theorem LabelMap.written_congr {m m' : LabelMap} (same : ∀ name value : String, value ≠ "" →
    (m[name]? = some value ↔ m'[name]? = some value)) : written m = written m' := by
  refine labels_eq_of_mem_iff (pairwise_written m) (pairwise_written m') fun l => ?_
  rw [mem_written, mem_written]
  exact and_congr_right fun hvalue => same l.name l.value hvalue

theorem Fragment.series?_of_points {f : Fragment} (h : f.points.getD [] ≠ []) :
    f.series? = some ⟨LabelMap.written f.labels, samples (f.points.getD [])⟩ := by
  unfold series?
  split
  · next hnil => exact absurd hnil h
  · rfl

theorem Fragment.isSeries_of_series? {f : Fragment} {s : TimeSeries} (h : f.series? = some s) :
    f.report.IsSeries s := by
  unfold series? at h
  split at h
  · cases h
  · cases h
    exact {
      ordered := LabelMap.pairwise_written _
      labels := fun l => LabelMap.mem_written.trans (and_congr_right fun _ => getElem?_labels)
      samples := ⟨_, isStableSort_mergeSort _, rfl⟩ }

theorem Fragment.isSome_series?_iff {f : Fragment} :
    f.series?.isSome = !f.report.points.isEmpty := by
  unfold series? report
  cases f.points.getD [] <;> rfl

theorem Report.IsSeries.unique {r : Report} {s s' : TimeSeries} (h : r.IsSeries s)
    (h' : r.IsSeries s') : s' = s := by
  obtain ⟨sorted, hsorted, hsamples⟩ := h.samples
  obtain ⟨sorted', hsorted', hsamples'⟩ := h'.samples
  have labels : s'.labels = s.labels :=
    labels_eq_of_mem_iff h'.ordered h.ordered fun l => (h'.labels l).trans (h.labels l).symm
  have samples : s'.samples = s.samples := by rw [hsamples', hsorted.unique hsorted', hsamples]
  obtain ⟨_, _⟩ := s
  obtain ⟨_, _⟩ := s'
  simp only at labels samples
  rw [labels, samples]

/-- The series of fragments are those that their reports stand for. -/
theorem isTranslation_filterMap (fragments : List Fragment) :
    IsTranslation (fragments.map Fragment.report) (fragments.filterMap Fragment.series?) := by
  unfold IsTranslation
  induction fragments with
  | nil => exact .nil
  | cons f fs ih =>
    rw [List.map_cons, List.filter_cons, ← Fragment.isSome_series?_iff]
    cases h : f.series? with
    | none => simpa [h] using ih
    | some s =>
      simp only [Option.isSome_some, if_true, List.filterMap_cons, h]
      exact .cons (Fragment.isSeries_of_series? h) ih

theorem IsTranslation.unique {reports : List Report} {out out' : List TimeSeries}
    (h : IsTranslation reports out) (h' : IsTranslation reports out') : out' = out := by
  unfold IsTranslation at h h'
  generalize reports.filter (fun r => !r.points.isEmpty) = listed at h h'
  induction h generalizing out' with
  | nil =>
    cases h'
    rfl
  | cons first _ ih =>
    cases h' with
    | cons first' others' => rw [first.unique first', ih others']

end TenantGate
