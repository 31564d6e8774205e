import TenantGate.Proofs.JsonMembers
import TenantGate.Proofs.SeriesTranslation
/-!
# Documents of fragments

However a document writes reports, with empty parts as null or left out and with members that are
not known, its series are those that the reports stand for.
-/

namespace TenantGate

open Json

def Fragment.names : List String :=
  ["metric", "points", "tags", "host", "device", "type", "interval", "source_type_name"]

namespace Json.Tree

def double? : Tree → Option Binary64
  | .number n => n.number?.map Number.value
  | _ => none

/-- A point is a list of its time and its value. -/
def point? : Tree → Option Point
  | .list [a, b] => do return ⟨← a.int?, ← b.double?⟩
  | _ => none

/-- The fragment that an object says.  It may have other members too, and these may repeat names. -/
def fragment? : Tree → Option Fragment
  | .object ps =>
    if ∀ name ∈ Fragment.names, Once ps name then do
      return {
        metric := ← member? text? ps "metric"
        points := ← member? (list? point?) ps "points"
        tags := ← member? texts? ps "tags"
        host := ← member? text? ps "host"
        device := ← member? text? ps "device"
        metricType := ← member? text? ps "type"
        interval := ← member? int? ps "interval"
        sourceTypeName := ← member? text? ps "source_type_name" }
    else none
  | _ => none

/-- The fragments that an object submits. -/
def submission? : Tree → Option (List Fragment)
  | .object ps =>
    if Once ps "series" then (member? (list? fragment?) ps "series").map (·.getD []) else none
  | _ => none

end Json.Tree

/-- A document writes an object that submits the reports. -/
def Renders (doc : Bytes) (reports : List Report) : Prop :=
  ∃ v s w fragments, Writes (.value v) s ∧ Blank w ∧ doc = s ++ w ∧
    v.submission? = some fragments ∧ reports = fragments.map Fragment.report

theorem passesBlanks_double : PassesBlanks double := passesBlanks_number _ _

theorem reads_double? (v : Tree) (x : Binary64) (h : v.double? = some x) : Reads double v x := by
  cases v with
  | number n =>
    obtain ⟨y, hy, rfl⟩ := Option.map_eq_some_iff.1 h
    exact reads_number hy rfl
  | null | boolean | text | list | object => simp [Tree.double?] at h

namespace Point

theorem passesBlanks_read : PassesBlanks read := by
  intro s
  simp only [read, bracketed, skipSpace_idem]

theorem element_writes {α : Type} {item : Reader α} (hitem : PassesBlanks item) {v : Tree} {x : α}
    (hread : Reads item v x) {s : Bytes} (h : Writes (.value v) s) {rest : Bytes}
    (hrest : Ends rest) (count : Nat) {s₀ : Bytes}
    (hs₀ : hasElement (count == 0) s₀ = hasElement true (s ++ rest)) :
    element count item s₀ = .ok (x, rest) := by
  obtain ⟨b, r, hb, hlead⟩ := h.exists_lead rest
  have hitems := hread s h rest hrest
  rw [← hitem, hb] at hitems
  simp only [element, hs₀, hasElement_first hb hlead.isLead, bind, Except.bind, if_true, hitems]

theorem hasElement_writes {v : Tree} {s w : Bytes} (hw : Blank w) (h : Writes (.value v) s)
    (rest : Bytes) : hasElement false (w ++ 0x2c :: (s ++ rest)) = hasElement true (s ++ rest) := by
  obtain ⟨b, r, hb, hlead⟩ := h.exists_lead rest
  rw [hasElement_comma hw hb hlead.isLead, hasElement_first hb hlead.isLead]

theorem reads_read (v : Tree) (p : Point) (h : v.point? = some p) : Reads read v p := by
  unfold Tree.point? at h
  split at h
  · next a b =>
    simp only [bind, Option.bind_eq_some_iff, pure, Option.some.injEq] at h
    obtain ⟨seconds, ha, value, hb, rfl⟩ := h
    intro s hs rest _
    cases hs with
    | @list w w' _ _ _ hw hs hw' =>
      cases hs with
      | @element _ _ _ first second between ha' hbetween hs =>
        cases hs with
        | lastElement hb' =>
          have hopen := skipSpace_bracketed hw (b := 0x5b) (by decide)
            (first ++ (between ++ 0x2c :: second)) w' 0x5d rest
          have shift : first ++ (between ++ 0x2c :: second) ++ (w' ++ 0x5d :: rest)
              = first ++ (between ++ 0x2c :: (second ++ (w' ++ 0x5d :: rest))) := by
            simp
          rw [shift] at hopen
          have hfirst := element_writes passesBlanks_int64 (reads_int? a seconds ha) ha'
            (Ends.blank_append hbetween (ends_comma (second ++ (w' ++ 0x5d :: rest)))) 0 rfl
          have hsecond := element_writes passesBlanks_double (reads_double? b value hb) hb'
            (Ends.blank_append hw' (ends_bracket rest)) 1 (hasElement_writes hbetween hb' _)
          have hsurplus (b : UInt8) (fuel : Bytes) :
              elements ignored (b :: fuel) false (w' ++ 0x5d :: rest) = .ok ([], 0x5d :: rest) := by
            simp [elements, hasElement_end hw', bind, Except.bind, pure, Except.pure]
          have hclose : closeList (0x5d :: rest) = .ok rest := closeList_close blank_nil rest
          simp only [read, bracketed, hopen, bind, Except.bind, hfirst, hsecond, hsurplus,
            List.isEmpty_nil, if_true, pure, Except.pure, hclose]
  · simp at h

end Point

namespace Fragment

/-- The members of an object that is a fragment. -/
structure Stated (ps : List (String × Tree)) (f : Fragment) : Prop where
  once : ∀ name ∈ names, Once ps name
  metric : member? Tree.text? ps "metric" = some f.metric
  points : member? (Tree.list? Tree.point?) ps "points" = some f.points
  tags : member? Tree.texts? ps "tags" = some f.tags
  host : member? Tree.text? ps "host" = some f.host
  device : member? Tree.text? ps "device" = some f.device
  metricType : member? Tree.text? ps "type" = some f.metricType
  interval : member? Tree.int? ps "interval" = some f.interval
  sourceTypeName : member? Tree.text? ps "source_type_name" = some f.sourceTypeName

theorem exists_stated {v : Tree} {f : Fragment} (h : v.fragment? = some f) :
    ∃ ps, v = .object ps ∧ Stated ps f := by
  unfold Tree.fragment? at h
  split at h
  · next ps =>
    split at h
    · next once =>
      simp only [bind, Option.bind_eq_some_iff, pure, Option.some.injEq] at h
      obtain ⟨_, metric, _, points, _, tags, _, host, _, device, _, metricType, _, interval, _,
        sourceTypeName, rfl⟩ := h
      exact ⟨ps, rfl, once, metric, points, tags, host, device, metricType, interval, sourceTypeName⟩
    · cases h
  · cases h

def effect (p : String × Tree) (f : Fragment) : Fragment :=
  if p.1 = "metric" then { f with metric := (p.2.nullable? Tree.text?).join }
  else if p.1 = "points" then { f with points := (p.2.nullable? (Tree.list? Tree.point?)).join }
  else if p.1 = "tags" then { f with tags := (p.2.nullable? Tree.texts?).join }
  else if p.1 = "host" then { f with host := (p.2.nullable? Tree.text?).join }
  else if p.1 = "device" then { f with device := (p.2.nullable? Tree.text?).join }
  else if p.1 = "type" then { f with metricType := (p.2.nullable? Tree.text?).join }
  else if p.1 = "interval" then { f with interval := (p.2.nullable? Tree.int?).join }
  else if p.1 = "source_type_name" then { f with sourceTypeName := (p.2.nullable? Tree.text?).join }
  else f

theorem fits_effect {ps : List (String × Tree)} {f : Fragment} (hs : Stated ps f) :
    ∀ q ∈ ps, Fits members effect q := by
  rintro ⟨name, v⟩ hq
  by_cases known : name ∈ names
  · have once := hs.once name known
    have reads_points? := reads_list? Point.passesBlanks_read Point.reads_read
    simp only [names, List.mem_cons, List.not_mem_nil, or_false] at known
    rcases known with rfl | rfl | rfl | rfl | rfl | rfl | rfl | rfl
    · exact fits_of_member? hs.metric once _ rfl passesBlanks_text reads_text?
        (fun v d => by simp [effect]) hq
    · exact fits_of_member? hs.points once _ rfl (passesBlanks_list _) reads_points?
        (fun v d => by simp [effect]) hq
    · exact fits_of_member? hs.tags once _ rfl (passesBlanks_list _) reads_texts?
        (fun v d => by simp [effect]) hq
    · exact fits_of_member? hs.host once _ rfl passesBlanks_text reads_text?
        (fun v d => by simp [effect]) hq
    · exact fits_of_member? hs.device once _ rfl passesBlanks_text reads_text?
        (fun v d => by simp [effect]) hq
    · exact fits_of_member? hs.metricType once _ rfl passesBlanks_text reads_text?
        (fun v d => by simp [effect]) hq
    · exact fits_of_member? hs.interval once _ rfl passesBlanks_int64 reads_int?
        (fun v d => by simp [effect]) hq
    · exact fits_of_member? hs.sourceTypeName once _ rfl passesBlanks_text reads_text?
        (fun v d => by simp [effect]) hq
  · have unknown : members.find? (·.name == name) = none := find?_eq_none known
    simp only [names, List.mem_cons, List.not_mem_nil, or_false, not_or] at known
    simp only [Fits, unknown]
    intro draft
    simp [effect, known]

theorem foldl_effect {ps : List (String × Tree)} {f : Fragment} (hs : Stated ps f) :
    ps.foldl (fun d q => effect q d) {} = f := by
  have once {name : String} (h : name ∈ names) := hs.once name h
  have hmetric := foldl_member? hs.metric (once (by decide)) effect metric (d := {})
    (fun v d => by simp [effect]) (fun p d hp => by grind [effect]) rfl
  have hpoints := foldl_member? hs.points (once (by decide)) effect points (d := {})
    (fun v d => by simp [effect]) (fun p d hp => by grind [effect]) rfl
  have htags := foldl_member? hs.tags (once (by decide)) effect tags (d := {})
    (fun v d => by simp [effect]) (fun p d hp => by grind [effect]) rfl
  have hhost := foldl_member? hs.host (once (by decide)) effect host (d := {})
    (fun v d => by simp [effect]) (fun p d hp => by grind [effect]) rfl
  have hdevice := foldl_member? hs.device (once (by decide)) effect device (d := {})
    (fun v d => by simp [effect]) (fun p d hp => by grind [effect]) rfl
  have hmetricType := foldl_member? hs.metricType (once (by decide)) effect metricType (d := {})
    (fun v d => by simp [effect]) (fun p d hp => by grind [effect]) rfl
  have hinterval := foldl_member? hs.interval (once (by decide)) effect interval (d := {})
    (fun v d => by simp [effect]) (fun p d hp => by grind [effect]) rfl
  have hsourceTypeName := foldl_member? hs.sourceTypeName (once (by decide)) effect sourceTypeName
    (d := {}) (fun v d => by simp [effect]) (fun p d hp => by grind [effect]) rfl
  generalize ps.foldl (fun d q => effect q d) {} = d at *
  obtain ⟨_, _, _, _, _, _, _, _⟩ := d
  simp only at hmetric hpoints htags hhost hdevice hmetricType hinterval hsourceTypeName
  subst hmetric hpoints htags hhost hdevice hmetricType hinterval hsourceTypeName
  rfl

theorem passesBlanks_read : PassesBlanks read := by
  intro s
  simp only [read, record, skipSpace_idem]

theorem reads_read (v : Tree) (f : Fragment) (h : v.fragment? = some f) : Reads read v f := by
  obtain ⟨ps, rfl, hs⟩ := exists_stated h
  have known : ∀ name, Knows members name → Once ps name := hs.once
  exact reads_record (fits_effect hs) known (congrArg Except.ok (foldl_effect hs))

theorem passesBlanks_readSubmission : PassesBlanks readSubmission := by
  intro s
  simp only [readSubmission, record, skipSpace_idem]

def seriesMember : Member (Option (List Fragment)) :=
  { optionalMember "series" (list read) fun _ x => x with absent := some }

theorem readSubmission_eq : readSubmission
    = record "struct SeriesSubmission" [seriesMember] none fun x => .ok (x.getD []) := rfl

def submissionEffect (p : String × Tree) (d : Option (List Fragment)) : Option (List Fragment) :=
  if p.1 = "series" then (p.2.nullable? (Tree.list? Tree.fragment?)).join else d

theorem fits_submissionEffect {ps : List (String × Tree)} {x : Option (List Fragment)}
    (h : member? (Tree.list? Tree.fragment?) ps "series" = some x) (once : Once ps "series") :
    ∀ q ∈ ps, Fits [seriesMember] submissionEffect q := by
  rintro ⟨name, v⟩ hq
  by_cases known : name = "series"
  · subst known
    have said := nullable?_of_mem h once hq
    have found : [seriesMember].find? (·.name == "series") = some seriesMember := rfl
    simp only [Fits, found]
    intro draft
    have effected : submissionEffect ("series", v) draft = x := by simp [submissionEffect, said]
    rw [effected]
    exact reads_optionalMember (passesBlanks_list _) (reads_list? passesBlanks_read reads_read)
      "series" (fun _ x => x) said draft
  · have unknown : [seriesMember].find? (·.name == name) = none :=
      find?_eq_none fun hknown => known (List.mem_singleton.1 hknown)
    simp only [Fits, unknown]
    intro draft
    simp [submissionEffect, known]

theorem reads_readSubmission (v : Tree) (fragments : List Fragment)
    (h : v.submission? = some fragments) : Reads readSubmission v fragments := by
  unfold Tree.submission? at h
  split at h
  · next ps =>
    split at h
    · next once =>
      obtain ⟨found, hfound, rfl⟩ := Option.map_eq_some_iff.1 h
      have gathered := foldl_member? hfound once submissionEffect id (d := none)
        (fun v d => by simp [submissionEffect]) (fun p d hp => by simp [submissionEffect, hp]) rfl
      rw [readSubmission_eq]
      refine reads_record (fits_submissionEffect hfound once) ?_ ?_
      · intro name hknown
        obtain rfl := List.mem_singleton.1 hknown
        exact once
      · rw [id_eq] at gathered
        rw [gathered]
    · cases h
  · cases h

theorem readAll_writes {v : Tree} {fragments : List Fragment} (h : v.submission? = some fragments)
    {s w : Bytes} (hs : Writes (.value v) s) (hw : Blank w) : readAll (s ++ w) = .ok fragments := by
  have hv : v ≠ .null := by
    rintro rfl
    cases h
  have reads := reads_optional passesBlanks_readSubmission hv (reads_readSubmission v fragments h)
  simp only [readAll, document_of_reads reads hs hw]
  rfl

end Fragment

/-- The series of a document are what the reports that it renders stand for, and nothing else. -/
theorem seriesOfFragments_of_renders {doc : Bytes} {reports : List Report}
    (h : Renders doc reports) : ∃ series, seriesOfFragments doc = .ok series ∧
      ∀ other, IsTranslation reports other ↔ other = series := by
  obtain ⟨v, s, w, fragments, hs, hw, rfl, hfragments, rfl⟩ := h
  have translated := isTranslation_filterMap fragments
  refine ⟨fragments.filterMap Fragment.series?, ?_, fun other => ⟨translated.unique, ?_⟩⟩
  · simp only [seriesOfFragments, Fragment.readAll_writes hfragments hs hw]
  · rintro rfl
    exact translated

namespace Report

def sample : Report where
  metric := "n_o_i_n_d_e_x.a.b"
  tags := ["k:v"]
  points := [⟨2, .ofInt 0⟩, ⟨1, .ofInt 2⟩]

def sampleFragment : Fragment where
  metric := some sample.metric
  tags := some sample.tags
  points := some sample.points

def sampleNumeral (digit : UInt8) (h : isDigit digit = true) : Numeral where
  whole := ⟨[digit], by simp, List.forall_mem_singleton.2 h⟩
  no_leading_zero := by simp

def samplePoint (seconds value : UInt8) (hs : isDigit seconds = true) (hv : isDigit value = true) :
    Tree :=
  .list [.number (sampleNumeral seconds hs), .number (sampleNumeral value hv)]

theorem writes_samplePoint (seconds value : UInt8) (hs : isDigit seconds = true)
    (hv : isDigit value = true) :
    Writes (.value (samplePoint seconds value hs hv)) [0x5b, seconds, 0x2c, value, 0x5d] :=
  .list blank_nil (.element (.number blank_nil _) blank_nil (.lastElement (.number blank_nil _)))
    blank_nil

def sampleDoc : Bytes := Bytes.ofText ("\x7b\"series\":[\x7b\"tags\":[\"k:v\"],\"host\":null,\"x\":[],"
  ++ "\"points\":[[2,0],[1,2]],\"metric\":\"n_o_i_n_d_e_x.a.b\"\x7d]\x7d\n")

theorem writes_member (name : String) (h : name.toList.all isPlain = true) {v : Tree} {s : Bytes}
    (hv : Writes (.value v) s) :
    Writes (.member (name, v)) (0x22 :: (Bytes.ofText name ++ 0x22 :: 0x3a :: s)) :=
  .pair blank_nil (spells_ofText name h) blank_nil hv

theorem renders_sample : Renders sampleDoc [sample] := by
  have tag := Writes.text blank_nil (spells_ofText "k:v" (by decide))
  have tags := writes_member "tags" (by decide)
    (.list blank_nil (.lastElement tag) blank_nil)
  have host := writes_member "host" (by decide) (.null blank_nil)
  have other := writes_member "x" (by decide) (.emptyList blank_nil blank_nil)
  have point := writes_samplePoint 0x32 0x30 (by decide) (by decide)
  have point' := writes_samplePoint 0x31 0x32 (by decide) (by decide)
  have points := writes_member "points" (by decide)
    (.list blank_nil (.element point blank_nil (.lastElement point')) blank_nil)
  have metric := writes_member "metric" (by decide)
    (.text blank_nil (spells_ofText "n_o_i_n_d_e_x.a.b" (by decide)))
  have fragment := Writes.object blank_nil (.moreMembers tags blank_nil (.moreMembers host blank_nil
    (.moreMembers other blank_nil (.moreMembers points blank_nil (.lastMember metric))))) blank_nil
  have series := writes_member "series" (by decide)
    (.list blank_nil (.lastElement fragment) blank_nil)
  exact ⟨_, _, [0x0a], [sampleFragment], .object blank_nil (.lastMember series) blank_nil,
    List.forall_mem_singleton.2 (by decide), by decide +kernel, by decide +kernel, rfl⟩

end Report

/-- The report of a document has one series, whose samples are in order. -/
theorem seriesOfFragments_of_sample : ∃ series,
    seriesOfFragments Report.sampleDoc = .ok series ∧
      ∀ other, IsTranslation [Report.sample] other ↔ other = series :=
  seriesOfFragments_of_renders Report.renders_sample

end TenantGate
