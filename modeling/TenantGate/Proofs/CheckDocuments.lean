import TenantGate.Proofs.FragmentDocuments
import TenantGate.Proofs.JsonRefusals
import TenantGate.Proofs.TagLabels
/-!
# Documents of checks

A service check is a fragment whose only point is its status at its time: however checks are
written, and however they are written as fragments, both documents have the same series.
-/

namespace TenantGate

open Json

def ServiceCheck.names : List String :=
  ["check", "host_name", "timestamp", "status", "message", "tags"]

namespace Json.Tree

def check? : Tree → Option ServiceCheck
  | .object ps =>
    if ∀ name ∈ ServiceCheck.names, Once ps name then do
      return {
        check := ← member? text? ps "check"
        hostName := ← member? text? ps "host_name"
        timestamp := ← member? int? ps "timestamp"
        status := ← member? int? ps "status"
        message := ← member? text? ps "message"
        tags := ← member? texts? ps "tags" }
    else none
  | _ => none

def statusPoint? : Tree → Option (Int × Int)
  | .list [a, b] => do return (← a.int?, ← b.int?)
  | _ => none

/-- The object says a check as a fragment. -/
structure Restates (ps : List (String × Tree)) (c : ServiceCheck) : Prop where
  once : ∀ name ∈ Fragment.names, Once ps name
  metric : (member? text? ps "metric").map (·.getD "") = some (c.check.getD "")
  host : (member? text? ps "host").map (·.getD "") = some (c.hostName.getD "")
  tags : (member? texts? ps "tags").map (·.getD []) = some (c.tags.getD [])
  points : member? (list? statusPoint?) ps "points"
    = some (some [(c.timestamp.getD 0, c.status.getD 0)])
  device : member? text? ps "device" = some none
  metricType : member? text? ps "type" = some none
  interval : member? int? ps "interval" = some none
  sourceTypeName : member? text? ps "source_type_name" = some none

end Json.Tree

/-- A document writes a list of checks. -/
def WritesChecks (doc : Bytes) (checks : List ServiceCheck) : Prop :=
  ∃ v s w, Writes (.value v) s ∧ Blank w ∧ doc = s ++ w ∧ v.list? Tree.check? = some checks

/-- A document submits a list of fragments that say the checks, one for each of them. -/
def WritesAsFragments (doc : Bytes) (checks : List ServiceCheck) : Prop :=
  ∃ ps pss s w, Writes (.value (.object ps)) s ∧ Blank w ∧ doc = s ++ w ∧ Once ps "series" ∧
    ps.lookup "series" = some (.list (pss.map .object)) ∧ List.Forall₂ Tree.Restates pss checks

namespace ServiceCheck

/-- The members of an object that is a check. -/
structure Stated (ps : List (String × Tree)) (c : ServiceCheck) : Prop where
  once : ∀ name ∈ names, Once ps name
  check : member? Tree.text? ps "check" = some c.check
  hostName : member? Tree.text? ps "host_name" = some c.hostName
  timestamp : member? Tree.int? ps "timestamp" = some c.timestamp
  status : member? Tree.int? ps "status" = some c.status
  message : member? Tree.text? ps "message" = some c.message
  tags : member? Tree.texts? ps "tags" = some c.tags

theorem exists_stated {v : Tree} {c : ServiceCheck} (h : v.check? = some c) :
    ∃ ps, v = .object ps ∧ Stated ps c := by
  unfold Tree.check? at h
  split at h
  · next ps =>
    split at h
    · next once =>
      simp only [bind, Option.bind_eq_some_iff, pure, Option.some.injEq] at h
      obtain ⟨_, check, _, hostName, _, timestamp, _, status, _, message, _, tags, rfl⟩ := h
      exact ⟨ps, rfl, once, check, hostName, timestamp, status, message, tags⟩
    · cases h
  · cases h

def effect (p : String × Tree) (c : ServiceCheck) : ServiceCheck :=
  if p.1 = "check" then { c with check := (p.2.nullable? Tree.text?).join }
  else if p.1 = "host_name" then { c with hostName := (p.2.nullable? Tree.text?).join }
  else if p.1 = "timestamp" then { c with timestamp := (p.2.nullable? Tree.int?).join }
  else if p.1 = "status" then { c with status := (p.2.nullable? Tree.int?).join }
  else if p.1 = "message" then { c with message := (p.2.nullable? Tree.text?).join }
  else if p.1 = "tags" then { c with tags := (p.2.nullable? Tree.texts?).join }
  else c

theorem fits_effect {ps : List (String × Tree)} {c : ServiceCheck} (hs : Stated ps c) :
    ∀ q ∈ ps, Fits members effect q := by
  rintro ⟨name, v⟩ hq
  by_cases known : name ∈ names
  · have once := hs.once name known
    simp only [names, List.mem_cons, List.not_mem_nil, or_false] at known
    rcases known with rfl | rfl | rfl | rfl | rfl | rfl
    · exact fits_of_member? hs.check once _ rfl passesBlanks_text reads_text?
        (fun v d => by simp [effect]) hq
    · exact fits_of_member? hs.hostName once _ rfl passesBlanks_text reads_text?
        (fun v d => by simp [effect]) hq
    · exact fits_of_member? hs.timestamp once _ rfl passesBlanks_int64 reads_int?
        (fun v d => by simp [effect]) hq
    · exact fits_of_member? hs.status once _ rfl passesBlanks_int64 reads_int?
        (fun v d => by simp [effect]) hq
    · exact fits_of_member? hs.message once _ rfl passesBlanks_text reads_text?
        (fun v d => by simp [effect]) hq
    · exact fits_of_member? hs.tags once _ rfl (passesBlanks_list _) reads_texts?
        (fun v d => by simp [effect]) hq
  · have unknown : members.find? (·.name == name) = none := find?_eq_none known
    simp only [names, List.mem_cons, List.not_mem_nil, or_false, not_or] at known
    simp only [Fits, unknown]
    intro draft
    simp [effect, known]

theorem foldl_effect {ps : List (String × Tree)} {c : ServiceCheck} (hs : Stated ps c) :
    ps.foldl (fun d q => effect q d) {} = c := by
  have once {name : String} (h : name ∈ names) := hs.once name h
  have hcheck := foldl_member? hs.check (once (by decide)) effect check (d := {})
    (fun v d => by simp [effect]) (fun p d hp => by grind [effect]) rfl
  have hhostName := foldl_member? hs.hostName (once (by decide)) effect hostName (d := {})
    (fun v d => by simp [effect]) (fun p d hp => by grind [effect]) rfl
  have htimestamp := foldl_member? hs.timestamp (once (by decide)) effect timestamp (d := {})
    (fun v d => by simp [effect]) (fun p d hp => by grind [effect]) rfl
  have hstatus := foldl_member? hs.status (once (by decide)) effect status (d := {})
    (fun v d => by simp [effect]) (fun p d hp => by grind [effect]) rfl
  have hmessage := foldl_member? hs.message (once (by decide)) effect message (d := {})
    (fun v d => by simp [effect]) (fun p d hp => by grind [effect]) rfl
  have htags := foldl_member? hs.tags (once (by decide)) effect tags (d := {})
    (fun v d => by simp [effect]) (fun p d hp => by grind [effect]) rfl
  generalize ps.foldl (fun d q => effect q d) {} = d at *
  obtain ⟨_, _, _, _, _, _⟩ := d
  simp only at hcheck hhostName htimestamp hstatus hmessage htags
  subst hcheck hhostName htimestamp hstatus hmessage htags
  rfl

theorem passesBlanks_read : PassesBlanks read := by
  intro s
  simp only [read, record, skipSpace_idem]

theorem reads_read (v : Tree) (c : ServiceCheck) (h : v.check? = some c) : Reads read v c := by
  obtain ⟨ps, rfl, hs⟩ := exists_stated h
  have known : ∀ name, Knows members name → Once ps name := hs.once
  exact reads_record (fits_effect hs) known (congrArg Except.ok (foldl_effect hs))

theorem readAll_writes {v : Tree} {checks : List ServiceCheck}
    (h : v.list? Tree.check? = some checks) {s w : Bytes} (hs : Writes (.value v) s)
    (hw : Blank w) : readAll (s ++ w) = .ok checks := by
  have hv : v ≠ .null := by
    rintro rfl
    cases h
  have reads := reads_optional (passesBlanks_list _) hv
    (reads_list? passesBlanks_read reads_read v checks h)
  simp only [readAll, document_of_reads reads hs hw]
  rfl

end ServiceCheck

/-- An integer is the same double, whether it is read as a number or kept as an integer before. -/
theorem Json.Tree.double?_of_int? {v : Tree} {i : Int} (h : v.int? = some i) :
    v.double? = some (.ofInt i) := by
  cases v with
  | number n =>
    have hend : Ends [] := by simp [Ends]
    obtain ⟨hmagnitude, ⟨hneg, hsmall, rfl⟩ | ⟨hneg, hsmall, rfl⟩⟩ := Numeral.int?_eq_some h
    · have hread := readNumber_integer n (by simp only [maxUnsigned]; omega) false hend
      rw [if_neg Bool.false_ne_true, if_neg hsmall, List.append_nil] at hread
      simp [double?, Numeral.number?, hneg, hmagnitude, hread, Number.value]
    · have hread := readNumber_integer n (by simp only [maxUnsigned]; omega) true hend
      rw [if_pos rfl, List.append_nil] at hread
      simp [double?, Numeral.number?, hneg, hmagnitude, hread, Number.value]
  | null | boolean | text | list | object => simp [int?] at h

theorem Json.Tree.point?_of_statusPoint? {v : Tree} {p : Int × Int} (h : v.statusPoint? = some p) :
    v.point? = some ⟨p.1, .ofInt p.2⟩ := by
  unfold statusPoint? at h
  split at h
  · next a b =>
    simp only [bind, Option.bind_eq_some_iff, pure, Option.some.injEq] at h
    obtain ⟨t, ha, status, hb, rfl⟩ := h
    simp [point?, ha, double?_of_int? hb]
  · cases h

section Decoders

variable {α β : Type} {decode : Json.Tree → Option α} {decode' : Json.Tree → Option β} {g : α → β}
  (h : ∀ v x, decode v = some x → decode' v = some (g x))
include h

theorem Json.Tree.list?_map {v : Tree} {xs : List α} (hxs : v.list? decode = some xs) :
    v.list? decode' = some (xs.map g) := by
  cases v with
  | list vs =>
    simp only [list?] at hxs ⊢
    induction vs generalizing xs with
    | nil =>
      obtain rfl : [] = xs := by simpa using hxs
      rfl
    | cons v vs ih =>
      obtain ⟨x, xs', hx, hxs', rfl⟩ := mapM_cons_eq_some.1 hxs
      exact mapM_cons_eq_some.2 ⟨g x, xs'.map g, h v x hx, ih hxs', rfl⟩
  | null | boolean | number | text | object => simp [list?] at hxs

theorem Json.member?_map {ps : List (String × Tree)} {name : String} {x : α}
    (hx : member? decode ps name = some (some x)) : member? decode' ps name = some (some (g x)) := by
  unfold member? at hx ⊢
  cases hlookup : ps.lookup name with
  | none => simp [hlookup] at hx
  | some v =>
    simp only [hlookup] at hx ⊢
    have hv : v ≠ .null := by
      rintro rfl
      simp [Tree.nullable?] at hx
    rw [Tree.nullable?_of_ne_null hv] at hx ⊢
    obtain ⟨y, hy, hyx⟩ := Option.map_eq_some_iff.1 hx
    rw [h v y hy, ← Option.some.inj hyx]
    rfl

end Decoders

/-- A fragment that says a check has its labels: those that are not given are empty. -/
theorem Fragment.written_labels_of_check {f : Fragment} {c : ServiceCheck}
    (hmetric : f.metric.getD "" = c.check.getD "") (hhost : f.host.getD "" = c.hostName.getD "")
    (htags : f.tags.getD [] = c.tags.getD []) (hdevice : f.device = none)
    (htype : f.metricType = none) (hinterval : f.interval = none) (hsource : f.sourceTypeName = none)
    (unmarked : ∀ rest, c.check.getD "" ≠ "n_o_i_n_d_e_x." ++ rest) :
    LabelMap.written f.labels = c.series.labels := by
  have own (name value : String) (hvalue : value ≠ "") : f.ownLabels[name]? = some value ↔
      (LabelMap.base (c.check.getD "") (c.hostName.getD ""))[name]? = some value := by
    have timed (m : LabelMap) : f.timed m = m := by simp [Fragment.timed, interval?, hinterval]
    simp only [ownLabels, report, timed, hmetric, hhost, hdevice, htype, hsource,
      unmarked_of_ne unmarked, Option.getD_none, LabelMap.base, getElem?_insert_eq_some,
      hvalue.symm, and_false, false_or]
    grind
  have tagged (name value : String) (hvalue : value ≠ "") :
      f.labels[name]? = some value ↔ (LabelMap.insertTags
        (LabelMap.base (c.check.getD "") (c.hostName.getD "")) (c.tags.getD []))[name]? = some value := by
    rw [labels_eq, getElem?_insertTags, getElem?_insertTags, own name value hvalue, report, htags]
  exact LabelMap.written_congr tagged

theorem samples_singleton (p : Point) :
    Fragment.samples [p] = [.atSeconds p.seconds p.value] := by
  simp [Fragment.samples]

theorem Json.Tree.Restates.exists_fragment {ps : List (String × Tree)} {c : ServiceCheck}
    (h : Restates ps c) (unmarked : ∀ rest, c.check.getD "" ≠ "n_o_i_n_d_e_x." ++ rest) :
    ∃ f, (Tree.object ps).fragment? = some f ∧ f.series? = some c.series := by
  obtain ⟨metric, hmetric, metric_eq⟩ := Option.map_eq_some_iff.1 h.metric
  obtain ⟨host, hhost, host_eq⟩ := Option.map_eq_some_iff.1 h.host
  obtain ⟨tags, htags, tags_eq⟩ := Option.map_eq_some_iff.1 h.tags
  have points := member?_map (fun _ _ => list?_map fun _ _ => point?_of_statusPoint?) h.points
  refine ⟨{ metric, host, tags, points := some [⟨c.timestamp.getD 0, .ofInt (c.status.getD 0)⟩] },
    ?_, ?_⟩
  · simp only [fragment?, if_pos h.once, hmetric, points, htags, hhost, h.device, h.metricType,
      h.interval, h.sourceTypeName, bind, Option.bind_some]
    rfl
  · rw [Fragment.series?_of_points (by simp), Fragment.written_labels_of_check metric_eq host_eq
      tags_eq rfl rfl rfl rfl unmarked, Option.getD_some, samples_singleton]
    rfl

theorem exists_fragments {pss : List (List (String × Tree))} {checks : List ServiceCheck}
    (h : List.Forall₂ Tree.Restates pss checks)
    (unmarked : ∀ c ∈ checks, ∀ rest, c.check.getD "" ≠ "n_o_i_n_d_e_x." ++ rest) :
    ∃ fragments, (pss.map Tree.object).mapM Tree.fragment? = some fragments ∧
      fragments.filterMap Fragment.series? = checks.map ServiceCheck.series := by
  induction h with
  | nil => exact ⟨[], rfl, rfl⟩
  | @cons ps c pss checks hps _ ih =>
    obtain ⟨f, hf, hseries⟩ := hps.exists_fragment (unmarked c List.mem_cons_self)
    obtain ⟨fragments, hfragments, hothers⟩ := ih fun c hc => unmarked c (List.mem_cons_of_mem _ hc)
    refine ⟨f :: fragments, mapM_cons_eq_some.2 ⟨f, fragments, hf, hfragments, rfl⟩, ?_⟩
    rw [List.filterMap_cons, hseries, hothers, List.map_cons]

/-- A document of checks and one of fragments that say the checks have the same series. -/
theorem seriesOfChecks_eq_seriesOfFragments {checks : List ServiceCheck} {doc doc' : Bytes}
    (hdoc : WritesChecks doc checks) (hdoc' : WritesAsFragments doc' checks)
    (unmarked : ∀ c ∈ checks, ∀ rest, c.check.getD "" ≠ "n_o_i_n_d_e_x." ++ rest) :
    seriesOfChecks doc = .ok (checks.map ServiceCheck.series) ∧
      seriesOfFragments doc' = seriesOfChecks doc := by
  obtain ⟨v, s, w, hs, hw, rfl, hchecks⟩ := hdoc
  obtain ⟨ps, pss, s', w', hs', hw', rfl, once, hlookup, hrestates⟩ := hdoc'
  have translated : seriesOfChecks (s ++ w) = .ok (checks.map ServiceCheck.series) := by
    simp only [seriesOfChecks, ServiceCheck.readAll_writes hchecks hs hw]
  obtain ⟨fragments, hfragments, hseries⟩ := exists_fragments hrestates unmarked
  have submitted : (Tree.object ps).submission? = some fragments := by
    simp [Tree.submission?, once, member?, hlookup, Tree.nullable?, Tree.list?, hfragments]
  refine ⟨translated, ?_⟩
  rw [translated]
  simp only [seriesOfFragments, Fragment.readAll_writes submitted hs' hw', hseries]

namespace ServiceCheck

def failing : ServiceCheck where
  check := some "a.b"
  status := some (-1)
  tags := some ["k:v"]

def checkDoc : Bytes :=
  Bytes.ofText "[\x7b\"check\":\"a.b\",\"status\":-1,\"tags\":[\"k:v\"]\x7d]"

def fragmentDoc : Bytes := Bytes.ofText ("\x7b\"series\":[\x7b\"metric\":\"a.b\",\"host\":null,"
  ++ "\"tags\":[\"k:v\"],\"points\":[[0,-1]]\x7d]\x7d")

def minusOne : Numeral := { Report.sampleNumeral 0x31 (by decide) with negative := true }

theorem writes_name : Writes (.value (.text "a.b")) (0x22 :: (Bytes.ofText "a.b" ++ [0x22])) :=
  .text blank_nil (spells_ofText "a.b" (by decide))

theorem writes_tags : Writes (.value (.list [.text "k:v"]))
    (0x5b :: (0x22 :: (Bytes.ofText "k:v" ++ [0x22]) ++ [0x5d])) :=
  .list blank_nil (.lastElement (.text blank_nil (spells_ofText "k:v" (by decide)))) blank_nil

theorem writesChecks_checkDoc : WritesChecks checkDoc [failing] := by
  have name := Report.writes_member "check" (by decide) writes_name
  have status := Report.writes_member "status" (by decide) (.number blank_nil minusOne)
  have tags := Report.writes_member "tags" (by decide) writes_tags
  have check := Writes.object blank_nil (.moreMembers name blank_nil
    (.moreMembers status blank_nil (.lastMember tags))) blank_nil
  exact ⟨_, _, [], .list blank_nil (.lastElement check) blank_nil, blank_nil, by decide +kernel,
    by decide +kernel⟩

theorem writesAsFragments_fragmentDoc : WritesAsFragments fragmentDoc [failing] := by
  have metric := Report.writes_member "metric" (by decide) writes_name
  have host := Report.writes_member "host" (by decide) (.null blank_nil)
  have tags := Report.writes_member "tags" (by decide) writes_tags
  have point := Writes.list blank_nil (.element (.number blank_nil (Report.sampleNumeral 0x30
    (by decide))) blank_nil (.lastElement (.number blank_nil minusOne))) blank_nil
  have points := Report.writes_member "points" (by decide)
    (.list blank_nil (.lastElement point) blank_nil)
  have fragment := Writes.object blank_nil (.moreMembers metric blank_nil (.moreMembers host
    blank_nil (.moreMembers tags blank_nil (.lastMember points)))) blank_nil
  have series := Report.writes_member "series" (by decide)
    (.list blank_nil (.lastElement fragment) blank_nil)
  refine ⟨_, [_], _, [], .object blank_nil (.lastMember series) blank_nil, blank_nil,
    by decide +kernel, by decide, rfl, .cons ?_ .nil⟩
  constructor <;> decide +kernel

theorem unmarked_failing (rest : String) : failing.check.getD "" ≠ "n_o_i_n_d_e_x." ++ rest := by
  intro heq
  have marked : "n_o_i_n_d_e_x.".toList <+: "a.b".toList :=
    ⟨rest.toList, by simpa [failing] using (congrArg String.toList heq).symm⟩
  exact absurd marked (by decide)

end ServiceCheck

/-- A check without a time and with a negative status has one sample in both documents. -/
theorem seriesOfChecks_of_failing :
    WritesChecks ServiceCheck.checkDoc [.failing] ∧
      WritesAsFragments ServiceCheck.fragmentDoc [.failing] ∧
      seriesOfChecks ServiceCheck.checkDoc = .ok [ServiceCheck.failing.series] ∧
      seriesOfFragments ServiceCheck.fragmentDoc = seriesOfChecks ServiceCheck.checkDoc :=
  ⟨ServiceCheck.writesChecks_checkDoc, ServiceCheck.writesAsFragments_fragmentDoc,
    seriesOfChecks_eq_seriesOfFragments ServiceCheck.writesChecks_checkDoc
      ServiceCheck.writesAsFragments_fragmentDoc
      (List.forall_mem_singleton.2 ServiceCheck.unmarked_failing)⟩

end TenantGate
