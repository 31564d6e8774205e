import TenantGate.Ingest.Handler
import TenantGate.Text.Characters
import TenantGate.Proofs.SeriesTranslation
import TenantGate.Proofs.Utf8Bytes
/-!
# The form of submitted series

A store refuses a whole request for one label out of place.  Whatever stands in a document, the
labels of its series have proper names in ascending order and hold something, and their samples are
in the order of time.
-/

namespace TenantGate

def isWordChar (c : Char) : Bool := c.isAlphanum || c == '_'

/-- Digits may stand everywhere but in front. -/
def isLabelName (name : String) : Bool :=
  match name.toList with
  | [] => false
  | c :: rest => (c.isAlpha || c == '_') && rest.all isWordChar

theorem isWordChar_of_mem {name : String} (h : isLabelName name = true) :
    ∀ c ∈ name.toList, isWordChar c = true := by
  unfold isLabelName at h
  split at h
  · cases h
  · next c rest heq =>
    rw [Bool.and_eq_true, List.all_eq_true] at h
    rw [heq, List.forall_mem_cons]
    refine ⟨?_, h.2⟩
    simp only [isWordChar, Char.isAlphanum, Bool.or_eq_true] at h ⊢
    exact h.1.imp_left .inl

theorem isLabelName_append {name rest : String} (h : isLabelName name = true)
    (hrest : ∀ c ∈ rest.toList, isWordChar c = true) : isLabelName (name ++ rest) = true := by
  unfold isLabelName at *
  rw [String.toList_append]
  split at h
  · cases h
  · next c cs heq =>
    rw [Bool.and_eq_true, List.all_eq_true] at h
    have all : (cs ++ rest.toList).all isWordChar = true := by
      rw [List.all_append, Bool.and_eq_true, List.all_eq_true, List.all_eq_true]
      exact ⟨h.2, hrest⟩
    simp only [heq, List.cons_append, h.1, all, Bool.and_self]

theorem lt_of_isWordChar {c : Char} (h : isWordChar c = true) : c.toNat < 128 := by
  delta isWordChar Char.isAlphanum Char.isAlpha Char.isUpper Char.isLower Char.isDigit at h
  simp only [Bool.or_eq_true, Bool.and_eq_true, decide_eq_true_eq, beq_iff_eq,
    UInt32.le_iff_toNat_le, ge_iff_le] at h
  rcases h with h | rfl
  · have : c.toNat = c.val.toNat := rfl
    have : 'Z'.val.toNat = 90 := rfl
    have : 'z'.val.toNat = 122 := rfl
    have : '9'.val.toNat = 57 := rfl
    omega
  · decide

namespace LabelMap

theorem toList_sanitizeName (name : String) :
    (sanitizeName name).toList = name.toList.map fun c => if isNameChar c then c else '_' := by
  rw [sanitizeName, String.toList_map]

theorem isNameChar_of_mem_sanitizeName {name : String} {c : Char}
    (h : c ∈ (sanitizeName name).toList) : isNameChar c = true := by
  rw [toList_sanitizeName] at h
  obtain ⟨d, _, rfl⟩ := List.mem_map.1 h
  split
  · next hd => exact hd
  · rfl

theorem isWordChar_of_mem_sanitizeName {name : String} (hname : ':' ∉ name.toList) {c : Char}
    (h : c ∈ (sanitizeName name).toList) : isWordChar c = true := by
  have hc := isNameChar_of_mem_sanitizeName h
  rw [toList_sanitizeName] at h
  obtain ⟨d, hd, rfl⟩ := List.mem_map.1 h
  have hne : d ≠ ':' := fun heq => hname (heq ▸ hd)
  split
  · next hkept =>
    rw [if_pos hkept] at hc
    simpa [isNameChar, isWordChar, hne] using hc
  · rfl

theorem isLabelName_of_tagLabel? {tag name value : String}
    (h : tagLabel? tag = some (name, value)) : isLabelName name = true := by
  obtain ⟨key, splits, rfl⟩ := tagLabel?_eq_some_iff.1 h
  exact isLabelName_append (by decide) fun _ hc => isWordChar_of_mem_sanitizeName splits.2 hc

/-- The labels of a series, the empty ones among them. -/
structure IsProper (m : LabelMap) : Prop where
  named : ∀ name value, m[name]? = some value → isLabelName name = true
  metric : ∀ value, m["__name__"]? = some value → ∀ c ∈ value.toList, isNameChar c = true
  job : m["job"]? = some "ddagent"

theorem isProper_base (metric host : String) : (base metric host).IsProper := by
  refine ⟨fun name value h => ?_, fun value h => ?_, by simp [base, job]⟩
  · simp only [base, getElem?_insert_eq_some] at h
    rcases h with ⟨rfl, _⟩ | ⟨_, ⟨rfl, _⟩ | ⟨_, ⟨rfl, _⟩ | ⟨_, h⟩⟩⟩
    · decide
    · decide
    · decide
    · simp at h
  · simp only [base, getElem?_insert_eq_some] at h
    rcases h with ⟨hname, _⟩ | ⟨_, ⟨hname, _⟩ | ⟨_, ⟨_, rfl⟩ | ⟨_, h⟩⟩⟩
    · exact absurd hname (by decide)
    · exact absurd hname (by decide)
    · exact fun c => isNameChar_of_mem_sanitizeName
    · simp at h

/-- A label with another name can be put in. -/
theorem IsProper.insert {m : LabelMap} (h : m.IsProper) (name value : String)
    (hname : isLabelName name = true) (hmetric : name ≠ "__name__") (hjob : name ≠ "job") :
    IsProper (m.insert name value) := by
  refine ⟨fun other text hget => ?_, fun text hget => ?_, ?_⟩
  · rcases getElem?_insert_eq_some.1 hget with ⟨rfl, _⟩ | ⟨_, hget⟩
    · exact hname
    · exact h.named _ _ hget
  · rcases getElem?_insert_eq_some.1 hget with ⟨heq, _⟩ | ⟨_, hget⟩
    · exact absurd heq hmetric
    · exact h.metric _ hget
  · exact getElem?_insert_eq_some.2 (.inr ⟨hjob, h.job⟩)

theorem ne_of_tagLabel? {tag name value other : String} (h : tagLabel? tag = some (name, value))
    (hother : ("ddtag_".toList.isPrefixOf other.toList) = false) : name ≠ other := by
  rintro rfl
  exact untagged_of_other_name hother [tag] tag List.mem_cons_self value h

theorem IsProper.insertTags {m : LabelMap} (h : m.IsProper) (tags : List String) :
    (insertTags m tags).IsProper := by
  induction tags generalizing m with
  | nil => exact h
  | cons tag tags ih =>
    cases hlabel : tagLabel? tag with
    | none =>
      have skipped : LabelMap.insertTags m (tag :: tags) = LabelMap.insertTags m tags := by
        simp [LabelMap.insertTags, hlabel]
      rw [skipped]
      exact ih h
    | some label =>
      have inserted : LabelMap.insertTags m (tag :: tags)
          = LabelMap.insertTags (m.insert label.1 label.2) tags := by
        simp [LabelMap.insertTags, hlabel]
      rw [inserted]
      exact ih (h.insert _ _ (isLabelName_of_tagLabel? hlabel)
        (ne_of_tagLabel? hlabel (by decide)) (ne_of_tagLabel? hlabel (by decide)))

end LabelMap

structure TimeSeries.IsWellFormed (s : TimeSeries) : Prop where
  ascending : s.labels.Pairwise fun l m => Bytes.ofText l.name < Bytes.ofText m.name
  unique : (s.labels.map (·.name)).Nodup
  named : ∀ l ∈ s.labels, isLabelName l.name = true
  filled : ∀ l ∈ s.labels, l.value ≠ ""
  job : ⟨"job", "ddagent"⟩ ∈ s.labels
  metric : ∀ l ∈ s.labels, l.name = "__name__" →
    ∀ c ∈ l.value.toList, c.isAlphanum = true ∨ c = '_' ∨ c = ':'
  sampled : s.samples ≠ []
  timed : s.samples.Pairwise fun x y => x.timestamp ≤ y.timestamp

theorem LabelMap.IsProper.isWellFormed {m : LabelMap} (h : m.IsProper) {samples : List Sample}
    (hne : samples ≠ []) (htimed : samples.Pairwise fun x y => x.timestamp ≤ y.timestamp) :
    TimeSeries.IsWellFormed ⟨written m, samples⟩ := by
  have named : ∀ l ∈ written m, isLabelName l.name = true := fun l hl =>
    h.named _ _ (mem_written.1 hl).2
  have ascii : ∀ l ∈ written m, ∀ c ∈ l.name.toList, c.toNat < 128 := fun l hl c hc =>
    lt_of_isWordChar (isWordChar_of_mem (named l hl) c hc)
  have ordered := pairwise_written m
  refine
    { ascending := ordered.imp_of_mem fun hl hm hlt => Bytes.ofText_lt hlt (ascii _ hl) (ascii _ hm)
      unique := List.pairwise_map.2 (ordered.imp fun hlt => String.ne_of_lt hlt)
      named := named
      filled := fun l hl => (mem_written.1 hl).1
      job := mem_written.2 ⟨by decide, h.job⟩
      metric := fun l hl hname c hc => ?_
      sampled := hne
      timed := htimed }
  have hget := (mem_written.1 hl).2
  rw [hname] at hget
  simpa [isNameChar, or_assoc] using h.metric _ hget c hc

theorem Fragment.isProper_labels (f : Fragment) : f.labels.IsProper := by
  have timed : (f.timed (LabelMap.base (unmarked f.report.metric) f.report.host)).IsProper := by
    unfold Fragment.timed
    split
    · exact (LabelMap.isProper_base _ _).insert "interval" _ (by decide) (by decide) (by decide)
    · exact LabelMap.isProper_base _ _
  rw [labels_eq]
  have device := timed.insert "device" f.report.device (by decide) (by decide) (by decide)
  have typed := device.insert "type" f.report.metricType (by decide) (by decide) (by decide)
  have sourced := typed.insert "source_type_name" f.report.sourceTypeName (by decide) (by decide)
    (by decide)
  exact sourced.insertTags _

theorem Fragment.pairwise_samples (points : List Point) :
    (samples points).Pairwise fun x y => x.timestamp ≤ y.timestamp := by
  refine List.pairwise_map.2 ((isStableSort_mergeSort points).ordered.imp fun h => ?_)
  exact clampInt64_mono (Int.mul_le_mul_of_nonneg_right h (by decide))

theorem Fragment.samples_eq_nil_iff {points : List Point} : samples points = [] ↔ points = [] := by
  rw [← List.length_eq_zero_iff, samples, List.length_map, List.length_mergeSort,
    List.length_eq_zero_iff]

theorem Fragment.isWellFormed_series? {f : Fragment} {s : TimeSeries} (h : f.series? = some s) :
    s.IsWellFormed := by
  unfold series? at h
  split at h
  · cases h
  · next points hpoints =>
    cases h
    refine f.isProper_labels.isWellFormed ?_ (pairwise_samples _)
    exact fun hnil => hpoints (samples_eq_nil_iff.1 hnil)

theorem ServiceCheck.isWellFormed_series (c : ServiceCheck) : c.series.IsWellFormed :=
  ((LabelMap.isProper_base _ _).insertTags _).isWellFormed (List.cons_ne_nil _ _)
    (List.pairwise_singleton _ _)

/-- All series of a document that is accepted are well formed. -/
theorem Submission.yields_wellFormed (kind : Submission) {doc : Bytes} {series : List TimeSeries}
    (h : kind.timeSeries doc = .ok series) : ∀ s ∈ series, s.IsWellFormed := by
  intro s hs
  cases kind with
  | series =>
    simp only [timeSeries, seriesOfFragments] at h
    split at h
    · cases h
      obtain ⟨f, _, hf⟩ := List.mem_filterMap.1 hs
      exact Fragment.isWellFormed_series? hf
    · cases h
  | checkRun =>
    simp only [timeSeries, seriesOfChecks] at h
    split at h
    · cases h
      obtain ⟨c, _, rfl⟩ := List.mem_map.1 hs
      exact c.isWellFormed_series
    · cases h

namespace Submission

/-- Two of the tags give labels of one name, and the points are not in order. -/
def crowded : Fragment where
  metric := some "n_o_i_n_d_e_x.a:b-ü"
  host := some ""
  tags := some ["b c:1", "b-c:2", ":x:y", "job:é", "alone", "e:"]
  points := some [⟨2, .ofInt 0⟩, ⟨1, .ofInt 0⟩]
  interval := some (-10)

def crowdedDoc : Bytes := Bytes.ofText (
  "\x7b\"series\":[\x7b\"metric\":\"n_o_i_n_d_e_x.a:b-ü\",\"host\":\"\","
  ++ "\"tags\":[\"b c:1\",\"b-c:2\",\":x:y\",\"job:é\",\"alone\",\"e:\"],"
  ++ "\"points\":[[2,0],[1,0]],\"interval\":-10\x7d]\x7d")

def crowdedSeries : TimeSeries where
  labels := [⟨"__name__", "a:b__"⟩, ⟨"ddtag_", "x:y"⟩, ⟨"ddtag_b_c", "2"⟩,
    ⟨"ddtag_job", "é"⟩, ⟨"interval", "-10"⟩, ⟨"job", "ddagent"⟩]
  samples := [⟨1000, .ofInt 0⟩, ⟨2000, .ofInt 0⟩]

theorem timeSeries_crowdedDoc : timeSeries .series crowdedDoc = .ok [crowdedSeries] := by
  have read : Fragment.readAll crowdedDoc = .ok [crowded] := by decide +kernel
  have labels : LabelMap.written crowded.labels = crowdedSeries.labels := by decide +kernel
  have samples : Fragment.samples (crowded.points.getD []) = crowdedSeries.samples := by
    have sorted : [⟨2, .ofInt 0⟩, ⟨1, .ofInt 0⟩].mergeSort
        (fun p q : Point => p.seconds ≤ q.seconds) = [⟨1, .ofInt 0⟩, ⟨2, .ofInt 0⟩] := by
      simp [List.mergeSort, List.MergeSort.Internal.splitInTwo]
    rw [crowded, Option.getD_some, Fragment.samples, sorted]
    rfl
  have series : crowded.series? = some crowdedSeries := by
    have form : crowded.series?
        = some ⟨LabelMap.written crowded.labels, Fragment.samples (crowded.points.getD [])⟩ := rfl
    rw [form, labels, samples]
  simp only [timeSeries, seriesOfFragments, read, List.filterMap_cons, series, List.filterMap_nil]

/-- Labels of tags are in order among the others, and so are points that were not. -/
theorem yields_wellFormed_of_crowded : timeSeries .series crowdedDoc = .ok [crowdedSeries] ∧
    ∀ s ∈ [crowdedSeries], s.IsWellFormed :=
  ⟨timeSeries_crowdedDoc, yields_wellFormed .series timeSeries_crowdedDoc⟩

end Submission
end TenantGate
