import TenantGate.Proofs.SeriesForm
/-!
# The samples of points

A series has a sample for each point of its fragment and no other samples.  They stand in the order
of their times, points of one time in the order of the document, and a time in milliseconds is
exact unless it is beyond 64 bits; then it is the bound on its own side.
-/

namespace TenantGate

def Point.sample (p : Point) : Sample := ⟨clampInt64 (p.seconds * 1000), p.value⟩

/-- The samples are those of the points, each point with its place among the others. -/
structure IsSampled (points : List Point) (samples : List Sample) : Prop where
  perm : samples.Perm (points.map Point.sample)
  timed : samples.Pairwise fun x y => x.timestamp ≤ y.timestamp
  placed : ∃ placed : List (Point × Nat), placed.Perm points.zipIdx ∧
    samples = placed.map (fun p => p.1.sample) ∧
    placed.Pairwise fun p q => p.1.seconds < q.1.seconds ∨
      p.1.seconds = q.1.seconds ∧ p.2 < q.2

/-- A time in milliseconds, within 64 bits, for one in seconds. -/
structure KeepsTime (seconds millis : Int) : Prop where
  inRange : minInt64 ≤ millis ∧ millis ≤ maxInt64
  exact : minInt64 ≤ seconds * 1000 → seconds * 1000 ≤ maxInt64 → millis = seconds * 1000
  late : maxInt64 < seconds * 1000 → millis = maxInt64
  early : seconds * 1000 < minInt64 → millis = minInt64
  positive : 0 < millis ↔ 0 < seconds
  negative : millis < 0 ↔ seconds < 0

theorem keepsTime_clampInt64 (seconds : Int) :
    KeepsTime seconds (clampInt64 (seconds * 1000)) := by
  constructor <;> simp only [clampInt64, minInt64, maxInt64] <;> omega

section Places

variable (points : List Point)

/-- The points in the order of their times, each with its place. -/
def placedByTime : List (Point × Nat) :=
  points.zipIdx.mergeSort (List.zipIdxLE fun p q => p.seconds ≤ q.seconds)

theorem placedByTime_perm : (placedByTime points).Perm points.zipIdx := List.mergeSort_perm _ _

theorem samples_eq_map_placedByTime :
    Fragment.samples points = (placedByTime points).map fun p => p.1.sample := by
  rw [Fragment.samples, ← List.mergeSort_zipIdx, List.map_map]
  rfl

theorem nodup_placedByTime : ((placedByTime points).map (·.2)).Nodup := by
  rw [((placedByTime_perm points).map _).nodup_iff, List.zipIdx_map_snd]
  exact List.nodup_range'

theorem pairwise_placedByTime : (placedByTime points).Pairwise fun p q =>
    p.1.seconds < q.1.seconds ∨ p.1.seconds = q.1.seconds ∧ p.2 < q.2 := by
  have ordered := List.pairwise_mergeSort (List.zipIdxLE_trans Point.notLater_trans)
    (List.zipIdxLE_total Point.notLater_total) points.zipIdx
  have distinct := List.pairwise_map.1 (nodup_placedByTime points)
  refine ordered.imp₂ (fun p q hle hne => ?_) distinct
  simp only [List.zipIdxLE, decide_eq_true_eq] at hle
  split at hle
  · split at hle
    · have : p.2 ≤ q.2 := by simpa using hle
      omega
    · omega
  · cases hle

end Places

theorem isSampled_samples (points : List Point) : IsSampled points (Fragment.samples points) where
  perm := (List.mergeSort_perm points _).map _
  timed := Fragment.pairwise_samples points
  placed := ⟨placedByTime points, placedByTime_perm points, samples_eq_map_placedByTime points,
    pairwise_placedByTime points⟩

theorem forall₂_isSampled (fragments : List Fragment) :
    List.Forall₂ (fun f s => IsSampled (f.points.getD []) s.samples)
      (fragments.filter fun f => !(f.points.getD []).isEmpty)
      (fragments.filterMap Fragment.series?) := by
  induction fragments with
  | nil => exact .nil
  | cons f fragments ih =>
    rw [List.filter_cons, List.filterMap_cons]
    cases hpoints : f.points.getD [] with
    | nil => simpa [Fragment.series?, hpoints] using ih
    | cons p points =>
      have series : f.series?
          = some ⟨LabelMap.written f.labels, Fragment.samples (p :: points)⟩ := by
        simp only [Fragment.series?, hpoints]
      rw [series]
      exact .cons (hpoints ▸ isSampled_samples (p :: points)) ih

/-- Each series of a document that is accepted has the points of its fragment for samples. -/
theorem samples_of_points :
    (∀ doc series, seriesOfFragments doc = .ok series → ∃ fragments,
      Fragment.readAll doc = .ok fragments ∧
      List.Forall₂ (fun f s => IsSampled (f.points.getD []) s.samples)
        (fragments.filter fun f => !(f.points.getD []).isEmpty) series) ∧
    ∀ p : Point, KeepsTime p.seconds p.sample.timestamp := by
  refine ⟨fun doc series h => ?_, fun p => keepsTime_clampInt64 p.seconds⟩
  unfold seriesOfFragments at h
  split at h
  · next fragments hread =>
    cases h
    exact ⟨fragments, hread, forall₂_isSampled fragments⟩
  · cases h

def latePoints : List Point :=
  [⟨0x7fffffffffffffff, .ofInt 0⟩, ⟨5, .ofInt 0⟩, ⟨0x7ffffffffffffffe, .ofInt 2⟩, ⟨5, .ofInt 1⟩]

def lateDoc : Bytes := Bytes.ofText ("\x7b\"series\":[\x7b\"points\":["
  ++ "[9223372036854775807,0],[5,0],[9223372036854775806,2],[5,1]]\x7d]\x7d")

def lateSamples : List Sample :=
  [⟨5000, .ofInt 0⟩, ⟨5000, .ofInt 1⟩, ⟨maxInt64, .ofInt 2⟩, ⟨maxInt64, .ofInt 0⟩]

def lateSeries : TimeSeries := ⟨[⟨"job", "ddagent"⟩], lateSamples⟩

theorem samples_latePoints : Fragment.samples latePoints = lateSamples := by
  have sorted : latePoints.mergeSort (fun p q => p.seconds ≤ q.seconds) =
      [⟨5, .ofInt 0⟩, ⟨5, .ofInt 1⟩, ⟨0x7ffffffffffffffe, .ofInt 2⟩,
        ⟨0x7fffffffffffffff, .ofInt 0⟩] := by
    simp [latePoints, List.mergeSort, List.MergeSort.Internal.splitInTwo]
  rw [Fragment.samples, sorted]
  rfl

theorem seriesOfFragments_lateDoc : seriesOfFragments lateDoc = .ok [lateSeries] := by
  have read : Fragment.readAll lateDoc = .ok [{ points := some latePoints }] := by decide +kernel
  have labels : LabelMap.written ({ points := some latePoints } : Fragment).labels
      = [⟨"job", "ddagent"⟩] := by decide +kernel
  have series := Fragment.series?_of_points (f := { points := some latePoints })
    (by simp [latePoints])
  rw [labels, Option.getD_some, samples_latePoints] at series
  simp only [seriesOfFragments, read, List.filterMap_cons, series, List.filterMap_nil, lateSeries]

/-- Points beyond 64 bits keep their order on the bound, and points of one time keep theirs. -/
theorem samples_of_points_late :
    seriesOfFragments lateDoc = .ok [lateSeries] ∧
      ∃ fragments, Fragment.readAll lateDoc = .ok fragments ∧
        List.Forall₂ (fun f s => IsSampled (f.points.getD []) s.samples)
          (fragments.filter fun f => !(f.points.getD []).isEmpty) [lateSeries] :=
  ⟨seriesOfFragments_lateDoc, samples_of_points.1 lateDoc _ seriesOfFragments_lateDoc⟩

end TenantGate
