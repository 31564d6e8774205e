import TenantGate.Proofs.FragmentDocuments
import TenantGate.Proofs.JsonKinds
/-!
# Documents that are accepted

A document of fragments is accepted only if all that is known in it is as it has to be: each point
a list of a time and a value, each tag a text, and no known member there twice.  All else may be of
any form.
-/

namespace TenantGate

open Json

namespace Json.Form

/-- A point is a list of exactly two numbers, the first of which is an integer of 64 bits. -/
def IsPoint : Form → Prop
  | .list [a, b] => a.IsInt ∧ b.IsDouble
  | _ => False

def fragmentFields : List Field := [
  { name := "metric", kind := OrNull IsText },
  { name := "points", kind := OrNull (IsList IsPoint) },
  { name := "tags", kind := OrNull (IsList IsText) },
  { name := "host", kind := OrNull IsText },
  { name := "device", kind := OrNull IsText },
  { name := "type", kind := OrNull IsText },
  { name := "interval", kind := OrNull IsInt },
  { name := "source_type_name", kind := OrNull IsText }]

def IsFragment : Form → Prop := IsRecord fragmentFields

def submissionFields : List Field := [
  { name := "series", kind := OrNull (IsList IsFragment), required := false }]

/-- A submission holds its fragments, and each fragment its points and tags. -/
def IsSubmission : Form → Prop := OrNull (IsRecord submissionFields)

end Json.Form

theorem Point.element_eq_ok {α : Type} {count : Nat} {item : Reader α} {s r : Bytes} {x : α}
    (h : Point.element count item s = .ok (x, r)) :
    ∃ l w t, Leads (count == 0) l ∧ Blank w ∧ s = l ++ (w ++ t) ∧ item t = .ok (x, r) := by
  obtain ⟨⟨more, t⟩, hmore, hitem⟩ := Result.bind_eq_ok.1 h
  cases more with
  | false => exact absurd hitem (faultAfterList_ne_ok _ _ _)
  | true =>
    obtain ⟨l, w, hl, hw, rfl⟩ := hasElement_eq_true hmore
    exact ⟨l, w, t, hl, hw, rfl, hitem⟩

theorem takesOnly_point : TakesOnly Point.read Form.IsPoint := by
  refine bracketed_takesOnly fun whole s p r h => ?_
  obtain ⟨⟨seconds, s₁⟩, hseconds, h₁⟩ := Result.bind_eq_ok.1 h
  obtain ⟨⟨value, s₂⟩, hvalue, h₂⟩ := Result.bind_eq_ok.1 h₁
  obtain ⟨⟨surplus, s₃⟩, hsurplus, h₃⟩ := Result.bind_eq_ok.1 h₂
  dsimp only at h₃
  split at h₃
  · next hempty =>
    obtain ⟨_, rfl⟩ := Prod.mk.inj (Result.pure_eq_ok.1 h₃)
    obtain ⟨l, w, t, hl, hw, rfl, hint⟩ := Point.element_eq_ok hseconds
    obtain ⟨l', w', t', hl', hw', rfl, hdouble⟩ := Point.element_eq_ok hvalue
    obtain ⟨a, sa, rfl, ha, hkind⟩ := takesOnly_int64 _ _ _ hint
    obtain ⟨b, sb, rfl, hb, hkind'⟩ := takesOnly_double _ _ _ hdouble
    obtain ⟨vs, s', rest, rfl, rfl, hvs, _, hlength⟩ :=
      elements_takesOnly takesOnly_ignored hsurplus
    obtain rfl : vs = [] := by simpa [List.isEmpty_iff.1 hempty] using hlength
    exact ⟨[a, b], _, rest, rfl, by simp, .element hl (ha.blank_value hw)
      (.element hl' (hb.blank_value hw') hvs), hkind, hkind'⟩
  · exact absurd h₃ (faultAfterList_ne_ok _ _ _)

theorem is_fragmentFields : List.Forall₂ Member.Is Fragment.members Form.fragmentFields :=
  .cons (Member.is_optional takesOnly_text _ _) <|
  .cons (Member.is_optional (takesOnly_list takesOnly_point) _ _) <|
  .cons (Member.is_optional (takesOnly_list takesOnly_text) _ _) <|
  .cons (Member.is_optional takesOnly_text _ _) <|
  .cons (Member.is_optional takesOnly_text _ _) <|
  .cons (Member.is_optional takesOnly_text _ _) <|
  .cons (Member.is_optional takesOnly_int64 _ _) <|
  .cons (Member.is_optional takesOnly_text _ _) .nil

theorem takesOnly_fragment : TakesOnly Fragment.read Form.IsFragment :=
  takesOnly_record is_fragmentFields (by decide) _ _ _

theorem takesOnly_submission :
    TakesOnly (optional Fragment.readSubmission) Form.IsSubmission := by
  have series := Member.is_optional (takesOnly_list takesOnly_fragment) "series"
    fun (_ : Option (List Fragment)) fragments => fragments
  have is_series : List.Forall₂ Member.Is
      [{ optionalMember "series" (list Fragment.read)
          fun (_ : Option (List Fragment)) fragments => fragments with absent := some }]
      Form.submissionFields :=
    .cons ⟨rfl, series.takes, fun hrequired => nomatch hrequired⟩ .nil
  have record := takesOnly_record is_series (by decide) "struct SeriesSubmission" none
    fun fragments => .ok (fragments.getD [])
  exact takesOnly_optional record

/-- A document is accepted only if it has the form of a submission.  If it has any other form, it is
refused as a whole. -/
theorem accepts_only_submissions (doc : Bytes) :
    (∀ series, seriesOfFragments doc = .ok series → ∃ v, Shown doc v ∧ v.IsSubmission) ∧
      ∀ v, Shown doc v → ¬v.IsSubmission →
        ∃ reason, seriesOfFragments doc = .error (.invalidJson reason) := by
  unfold seriesOfFragments
  cases hread : Fragment.readAll doc with
  | ok fragments =>
    obtain ⟨x, hx, _⟩ := Result.map_eq_ok.1 hread
    obtain ⟨v, hv, hsubmission⟩ := exists_shown takesOnly_submission hx
    refine ⟨fun _ _ => ⟨v, hv, hsubmission⟩, fun v' hv' hbad => ?_⟩
    obtain rfl := hv.unique hv'
    exact absurd hsubmission hbad
  | error reason => exact ⟨fun _ h => (nomatch h), fun _ _ _ => ⟨reason, rfl⟩⟩

namespace Fragment

def unknownDoc : Bytes := Bytes.ofText "\x7b\"x\":\"" ++ 0xff :: Bytes.ofText "\"\x7d"

def shortPointDoc : Bytes :=
  Bytes.ofText "\x7b\"series\":[\x7b\"x\":[]\x7d,\x7b\"points\":[[1,2],[1]]\x7d]\x7d"

def digitForm (digit : UInt8) : Form := .word [digit]

def shortPointsForm : Form := .list [.list [digitForm 0x31, digitForm 0x32], .list [digitForm 0x31]]

def single (name : String) (v : Form) : Form := .object [(Bytes.ofText name, v)]

def shortPointForm : Form :=
  single "series" (.list [single "x" (.list []), single "points" shortPointsForm])

theorem shows_digit (digit : UInt8) (h : isDigit digit = true) :
    Shows (.value (digitForm digit)) [digit] :=
  .blank blank_nil (.numeral (Report.sampleNumeral digit h))

theorem shows_single (name : String) (h : name.toList.all isPlain = true) {v : Form} {s : Bytes}
    (hv : Shows (.value v) s) : Shows (.value (single name v))
      (0x7b :: (0x22 :: (Bytes.ofText name ++ 0x22 :: 0x3a :: (s ++ [])) ++ [0x7d])) :=
  .blank blank_nil (.object (.member leads_first blank_nil (spells_ofText name h).quoted blank_nil
    hv (.noMember blank_nil)))

theorem shows_pair {v v' : Form} {s s' : Bytes} (hv : Shows (.value v) s)
    (hv' : Shows (.value v') s') :
    Shows (.value (.list [v, v'])) (0x5b :: (s ++ (0x2c :: (s' ++ [])) ++ [0x5d])) :=
  .blank blank_nil (.list (.element leads_first hv (.element (leads_comma blank_nil) hv'
    (.noElement blank_nil))))

theorem shown_shortPointForm : Shown shortPointDoc shortPointForm := by
  have one := shows_digit 0x31 (by decide)
  have short := Shows.blank blank_nil (.list (.element leads_first one (.noElement blank_nil)))
  have points := shows_single "points" (by decide)
    (shows_pair (shows_pair one (shows_digit 0x32 (by decide))) short)
  have empty := Shows.blank blank_nil (.list (.noElement blank_nil))
  have series := shows_single "series" (by decide)
    (shows_pair (shows_single "x" (by decide) empty) points)
  exact ⟨_, [], by decide +kernel, series, blank_nil⟩

theorem not_isSubmission_shortPointForm : ¬shortPointForm.IsSubmission := by
  rintro (h | h)
  · cases h
  obtain h | fragments := h.kinds _ List.mem_cons_self _ List.mem_cons_self
    (spells_ofText "series" (by decide))
  · cases h
  have fragment : (single "points" shortPointsForm).IsFragment :=
    fragments _ (List.mem_cons_of_mem _ List.mem_cons_self)
  obtain h | points := fragment.kinds _ (List.mem_cons_of_mem _ List.mem_cons_self) _
    List.mem_cons_self (spells_ofText "points" (by decide))
  · cases h
  exact points (.list [digitForm 0x31]) (List.mem_cons_of_mem _ List.mem_cons_self)

end Fragment

/-- A short point is enough for a refusal, and an unknown member is not. -/
theorem accepts_only_submissions_of_shortPoint :
    (∃ v, Shown Fragment.unknownDoc v ∧ v.IsSubmission) ∧
      ∃ reason, seriesOfFragments Fragment.shortPointDoc = .error (.invalidJson reason) :=
  ⟨(accepts_only_submissions Fragment.unknownDoc).1 [] (by decide +kernel),
    (accepts_only_submissions Fragment.shortPointDoc).2 _ Fragment.shown_shortPointForm
      Fragment.not_isSubmission_shortPointForm⟩

end TenantGate
