import Mathlib.Tactic.Common
import Std.Data.String.ToNat
import TenantGate.Config
import TenantGate.Router.Dispatch
/-!
# Labels as they are written

A written text stands between quotes, and the first quote after it that no backslash escapes is the
one that ends it.  So a line that holds written texts can be read back, and two requests are counted
in one line only if their labels are written alike.  Texts without a backslash are written alike
only if they are the same.
-/

namespace TenantGate
namespace Exposition

/-- No quote stands for itself, and what follows a backslash belongs to it. -/
inductive Escaped : List Char → Prop
  | nil : Escaped []
  | plain {c : Char} {s : List Char} : c ≠ '"' → c ≠ '\\' → Escaped s → Escaped (c :: s)
  | pair {c : Char} {s : List Char} : Escaped s → Escaped ('\\' :: c :: s)

theorem escaped_escapeFrom (held : Bool) (s : List Char) : Escaped (escapeFrom true held s) := by
  induction s generalizing held with
  | nil => cases held <;> simp [escapeFrom, Escaped.nil, Escaped.pair]
  | cons c s ih =>
    unfold escapeFrom
    split_ifs with hline hquote hslash hheld hheld
    · exact .pair (ih held)
    · exact .pair (ih false)
    · exact .pair (ih false)
    · exact ih true
    · exact .pair (.plain (fun h => hquote ⟨h, rfl⟩) hslash (ih false))
    · exact .plain (fun h => hquote ⟨h, rfl⟩) hslash (ih false)

/-- Where a written text ends can be told from what is read. -/
theorem Escaped.eq_of_append {s t rest rest' : List Char} (hs : Escaped s) (ht : Escaped t)
    (h : s ++ '"' :: rest = t ++ '"' :: rest') : s = t ∧ rest = rest' := by
  induction hs generalizing t with
  | nil =>
    cases ht with
    | nil => exact ⟨rfl, (List.cons.inj h).2⟩
    | plain hquote => exact absurd (List.cons.inj h).1.symm hquote
    | pair => exact absurd (List.cons.inj h).1 (by decide)
  | plain hquote hslash _ ih =>
    cases ht with
    | nil => exact absurd (List.cons.inj h).1 hquote
    | plain _ _ ht =>
      obtain ⟨rfl, hcons⟩ := List.cons.inj h
      obtain ⟨rfl, hrest⟩ := ih ht hcons
      exact ⟨rfl, hrest⟩
    | pair => exact absurd (List.cons.inj h).1 hslash
  | pair _ ih =>
    cases ht with
    | nil => exact absurd (List.cons.inj h).1 (by decide)
    | plain _ hslash => exact absurd (List.cons.inj h).1.symm hslash
    | pair ht =>
      obtain ⟨rfl, hcons⟩ := List.cons.inj (List.cons.inj h).2
      obtain ⟨rfl, hrest⟩ := ih ht hcons
      exact ⟨rfl, hrest⟩

theorem escapeFrom_cons {c : Char} (hc : c ≠ '\\') (s : List Char) :
    escapeFrom true false (c :: s) =
      (if c = '\n' then ['\\', 'n'] else if c = '"' then ['\\', '"'] else [c])
        ++ escapeFrom true false s := by
  rw [escapeFrom]
  by_cases hline : c = '\n'
  · simp [hline]
  · by_cases hquote : c = '"' <;> simp [hline, hquote, hc]

/-- Only a backslash can make two texts one. -/
theorem escapeFrom_inj {s t : List Char} (hs : '\\' ∉ s) (ht : '\\' ∉ t)
    (h : escapeFrom true false s = escapeFrom true false t) : s = t := by
  induction s generalizing t with
  | nil =>
    cases t with
    | nil => rfl
    | cons d t =>
      obtain ⟨hd, _⟩ := List.ne_and_not_mem_of_not_mem_cons ht
      rw [escapeFrom_cons hd.symm] at h
      split_ifs at h <;> cases h
  | cons c s ih =>
    obtain ⟨hc, hs'⟩ := List.ne_and_not_mem_of_not_mem_cons hs
    cases t with
    | nil =>
      rw [escapeFrom_cons hc.symm] at h
      split_ifs at h <;> cases h
    | cons d t =>
      obtain ⟨hd, ht'⟩ := List.ne_and_not_mem_of_not_mem_cons ht
      rw [escapeFrom_cons hc.symm, escapeFrom_cons hd.symm] at h
      have hboth : c = d ∧ escapeFrom true false s = escapeFrom true false t := by
        split_ifs at h <;> simp_all
      obtain ⟨rfl, htail⟩ := hboth
      rw [ih hs' ht' htail]

theorem metricName_eq {name : String} {c : Char} {s : List Char} (hname : name.toList = c :: s)
    (hc : isNameStart c = true) (hs : ∀ d ∈ s, isNameChar d = true) : metricName name = name := by
  have hmap : s.map (fun d => if isNameChar d then d else '_') = s := by
    conv_rhs => rw [← List.map_id s]
    exact List.map_congr_left fun d hd => by simp [hs d hd]
  apply String.toList_injective
  simp only [metricName, hname, hc, hmap, if_true, String.toList_ofList]

def requestMetric (space : String) : String := MetricDefinition.requestDuration.nameIn space

theorem requestMetric_of_isSpace {space : String} (h : Config.isSpace space = true) :
    metricName (requestMetric space) = requestMetric space ∧
      ∃ c s, (requestMetric space).toList = c :: s ∧ isNameStart c = true := by
  unfold Config.isSpace at h
  split at h
  · cases h
  · next c s hspace =>
    simp only [Bool.and_eq_true, List.all_eq_true] at h
    have hne : space ≠ "" := by
      rintro rfl
      cases hspace
    have hname : (requestMetric space).toList = c :: (s ++ "_request_duration_seconds".toList) := by
      simp [requestMetric, MetricDefinition.nameIn, MetricDefinition.namespaced, hne, hspace,
        MetricDefinition.requestDuration]
    refine ⟨metricName_eq hname h.1 fun d hd => ?_, c, _, hname, h.1⟩
    rcases List.mem_append.1 hd with hd | hd
    · exact h.2 d hd
    · have hrest : ("_request_duration_seconds".toList.all isNameChar) = true := by decide
      exact List.all_eq_true.1 hrest d hd

theorem labelTexts_labels (l : RequestLabels) : labelTexts l.labels =
    [labelText ("method", l.method), labelText ("route", l.route),
      labelText ("status_code", Nat.repr l.status)] := by
  have hnames : (["method", "route", "status_code"] : List String).eraseDups
      = ["method", "route", "status_code"] := by decide
  simp [labelTexts, lastValues, RequestLabels.labels, hnames]

theorem labelTexts_eq_iff {l l' : RequestLabels} : labelTexts l.labels = labelTexts l'.labels ↔
    labelValue l.method = labelValue l'.method ∧ labelValue l.route = labelValue l'.route ∧
      labelValue (Nat.repr l.status) = labelValue (Nat.repr l'.status) := by
  simp [labelTexts_labels, labelText]

/-- There is no backslash in what names a request. -/
def Plain (l : RequestLabels) : Prop := '\\' ∉ l.method.toList ∧ '\\' ∉ l.route.toList

theorem labelValue_inj {s t : String} (hs : '\\' ∉ s.toList) (ht : '\\' ∉ t.toList)
    (h : labelValue s = labelValue t) : s = t :=
  String.toList_injective (escapeFrom_inj hs ht (String.ofList_injective h))

theorem not_mem_repr (n : Nat) : '\\' ∉ (Nat.repr n).toList := by
  intro h
  rw [Nat.repr_eq_ofList_toDigits, String.toList_ofList] at h
  exact absurd (Nat.isDigit_of_mem_toDigits (by decide) (by decide) h) (by decide)

/-- Plain labels are written alike only if they are the same. -/
theorem eq_of_labelTexts {l l' : RequestLabels} (hl : Plain l) (hl' : Plain l')
    (h : labelTexts l.labels = labelTexts l'.labels) : l = l' := by
  obtain ⟨hmethod, hroute, hstatus⟩ := labelTexts_eq_iff.1 h
  obtain ⟨method, route, status⟩ := l
  obtain ⟨method', route', status'⟩ := l'
  obtain rfl := labelValue_inj hl.1 hl'.1 hmethod
  obtain rfl := labelValue_inj hl.2 hl'.2 hroute
  obtain rfl := Nat.repr_inj.1 (labelValue_inj (not_mem_repr _) (not_mem_repr _) hstatus)
  rfl

/-- The line that says that `n` requests were counted under some labels. -/
def countText (space : String) (l : RequestLabels) (n : Nat) : String :=
  line (requestMetric space ++ "_count") (labelTexts l.labels) (Nat.repr n)

theorem toList_countText (space : String) (l : RequestLabels) (n : Nat) :
    (countText space l n).toList = (requestMetric space).toList ++ ("_count\x7bmethod=\"".toList ++
      (escapeFrom true false l.method.toList ++ '"' :: (",route=\"".toList ++
        (escapeFrom true false l.route.toList ++ '"' :: (",status_code=\"".toList ++
          (escapeFrom true false (Nat.repr l.status).toList ++ '"' ::
            ("\x7d ".toList ++ (Nat.repr n).toList))))))) := by
  simp [countText, line, labelTexts_labels, labelText, labelValue, String.intercalate_cons_cons,
    String.intercalate_singleton]

/-- A line tells how its labels are written and how many requests it counts. -/
theorem countText_inj {space : String} {l l' : RequestLabels} {n n' : Nat} :
    countText space l n = countText space l' n' ↔
      labelTexts l.labels = labelTexts l'.labels ∧ n = n' := by
  constructor
  · intro h
    have hchars := congrArg String.toList h
    rw [toList_countText, toList_countText] at hchars
    obtain ⟨hmethod, hchars⟩ := (escaped_escapeFrom false _).eq_of_append (escaped_escapeFrom false _)
      (List.append_cancel_left (List.append_cancel_left hchars))
    obtain ⟨hroute, hchars⟩ := (escaped_escapeFrom false _).eq_of_append (escaped_escapeFrom false _)
      (List.append_cancel_left hchars)
    obtain ⟨hstatus, hchars⟩ := (escaped_escapeFrom false _).eq_of_append (escaped_escapeFrom false _)
      (List.append_cancel_left hchars)
    have hn := String.toList_injective (List.append_cancel_left hchars)
    refine ⟨?_, Nat.repr_inj.1 hn⟩
    simp only [labelTexts_labels, labelText, labelValue, hmethod, hroute, hstatus]
  · rintro ⟨hlabels, rfl⟩
    simp only [countText, hlabels]

end Exposition
end TenantGate
