import TenantGate.Proofs.RequestCounts
import TenantGate.Proofs.WrittenLabels
/-!
# How many requests a service tells of

What is told of the requests of a service has one line with a number for each way in which labels
are written, and the number is that of the requests whose labels are written in this way.
-/

namespace TenantGate
namespace Exposition

/-- Values under these labels are counted in one line. -/
def Alike (l l' : RequestLabels) : Prop := labelTexts l.labels = labelTexts l'.labels

instance (l : RequestLabels) : DecidablePred (Alike l) :=
  fun l' => inferInstanceAs (Decidable (labelTexts l.labels = labelTexts l'.labels))

section Kinds

variable {space : String} {l : RequestLabels} {n : Nat}

theorem countText_ne_line {suffix : String} (kind : Char) {rest : List Char} (hkind : 'c' ≠ kind)
    (hsuffix : suffix.toList = '_' :: kind :: rest) (labels : List String) (value : String) :
    countText space l n ≠ line (requestMetric space ++ suffix) labels value := by
  have hline : ∃ tail, (line (requestMetric space ++ suffix) labels value).toList
      = (requestMetric space).toList ++ ('_' :: kind :: tail) := by
    unfold line
    split <;> simp [hsuffix]
  obtain ⟨tail, htail⟩ := hline
  intro h
  have hchars := congrArg String.toList h
  rw [toList_countText, htail] at hchars
  obtain ⟨-, hrest⟩ := List.cons.inj (List.append_cancel_left hchars)
  exact hkind (List.cons.inj hrest).1

theorem countText_ne_comment (h : Config.isSpace space = true) {s : String}
    (hs : s.toList.head? = some '#') : countText space l n ≠ s := by
  obtain ⟨-, c, rest, hname, hc⟩ := requestMetric_of_isSpace h
  rintro rfl
  rw [toList_countText, hname] at hs
  obtain rfl : c = '#' := Option.some.inj hs
  exact absurd hc (by decide)

end Kinds

section Lines

variable {space : String} (h : Config.isSpace space = true)
  (counted : List (RequestLabels × Binary64)) (descriptions : List (String × String))

/-- What a service kept of its requests, with some descriptions of metrics. -/
def kept (space : String) (counted : List (RequestLabels × Binary64))
    (descriptions : List (String × String)) : Registry :=
  { Router.registry space counted with descriptions := descriptions }

theorem kept_eq : kept space counted descriptions =
    { histograms := [(requestMetric space, MetricDefinition.requestDuration.bounds)]
      descriptions := descriptions
      observations := counted.map fun c => c.1.observation space c.2 } := by
  rw [kept, Router.registry_eq]
  rfl

include h

theorem mem_lines_iff {x : String} : x ∈ lines (kept space counted descriptions) ↔
    counted ≠ [] ∧ x ∈ metricLines (kept space counted descriptions) (requestMetric space) := by
  have hname (c : RequestLabels × Binary64) :
      metricName (c.1.observation space c.2).metric = requestMetric space :=
    (requestMetric_of_isSpace h).1
  have hmap : ((kept space counted descriptions).observations.map fun o => metricName o.metric)
      = counted.map fun _ => requestMetric space := by
    rw [kept_eq, List.map_map]
    exact List.map_congr_left fun c _ => hname c
  rw [lines, hmap, List.mem_flatMap]
  constructor
  · rintro ⟨name, hmem, hx⟩
    obtain ⟨c, hc, rfl⟩ := List.mem_map.1 (List.mem_eraseDups.1 hmem)
    exact ⟨List.ne_nil_of_mem hc, hx⟩
  · rintro ⟨hne, hx⟩
    obtain ⟨c, hc⟩ := List.exists_mem_of_ne_nil counted hne
    exact ⟨_, List.mem_eraseDups.2 (List.mem_map.2 ⟨c, hc, rfl⟩), hx⟩

theorem groups_kept : groups (kept space counted descriptions).observations (requestMetric space) =
    (counted.map fun c => labelTexts c.1.labels).eraseDups.map fun labels =>
      (labels, (counted.filter fun c => labelTexts c.1.labels == labels).map (·.2)) := by
  have hown : (kept space counted descriptions).observations.filter
      (fun o => metricName o.metric == requestMetric space)
      = counted.map fun c => c.1.observation space c.2 := by
    rw [kept_eq]
    refine List.filter_eq_self.2 fun o ho => ?_
    obtain ⟨c, _, rfl⟩ := List.mem_map.1 ho
    exact beq_iff_eq.2 (requestMetric_of_isSpace h).1
  simp only [groups, hown, List.map_map, List.filter_map]
  rfl

/-- Of all lines of the metric only those that tell a number of requests can be such a line. -/
theorem mem_metricLines_iff (l : RequestLabels) (n : Nat) :
    countText space l n ∈ metricLines (kept space counted descriptions) (requestMetric space) ↔
      ∃ g ∈ groups (kept space counted descriptions).observations (requestMetric space),
        countText space l n = countLine (requestMetric space) g.1 g.2 := by
  have hfind : find? (kept space counted descriptions).histograms (requestMetric space)
      = some MetricDefinition.requestDuration.bounds := by
    simp [kept_eq, find?, (requestMetric_of_isSpace h).1]
  have hhist (g : List String × List Binary64) : countText space l n ∈ histogramLines
      (requestMetric space) MetricDefinition.requestDuration.bounds g.1 g.2 ↔
        countText space l n = countLine (requestMetric space) g.1 g.2 := by
    have hbucket (bound : String) (count : Nat) :
        countText space l n ≠ bucketLine (requestMetric space) g.1 bound count :=
      countText_ne_line 'b' (by decide) rfl _ _
    have hsum : countText space l n ≠ sumLine (requestMetric space) g.1 g.2 :=
      countText_ne_line 's' (by decide) rfl _ _
    simp [histogramLines, hbucket, hsum, eq_comm (b := countText space l n)]
  have htype (tail : String) :
      countText space l n ≠ "# TYPE " ++ requestMetric space ++ tail :=
    countText_ne_comment h (by simp)
  have hhelp (tail : String) :
      countText space l n ≠ "# HELP " ++ requestMetric space ++ " " ++ tail :=
    countText_ne_comment h (by simp)
  unfold metricLines
  rw [hfind]
  cases find? (kept space counted descriptions).descriptions (requestMetric space) with
  | none => simp [htype, hhist]
  | some d => simp [htype, hhelp, hhist]

/-- The line of some labels tells how many requests have labels that are written alike. -/
theorem countText_mem_lines_iff (l : RequestLabels) (n : Nat) :
    countText space l n ∈ lines (kept space counted descriptions) ↔
      0 < n ∧ n = counted.countP fun c => Alike l c.1 := by
  have hline (c : RequestLabels × Binary64) (values : List Binary64) :
      countText space l n = countLine (requestMetric space) (labelTexts c.1.labels) values ↔
        Alike l c.1 ∧ n = values.length := countText_inj
  rw [mem_lines_iff h, mem_metricLines_iff h, groups_kept h]
  have hcount (c : RequestLabels × Binary64) (hc : Alike l c.1) :
      ((counted.filter fun c' => labelTexts c'.1.labels == labelTexts c.1.labels).map (·.2)).length
        = counted.countP fun c => Alike l c.1 := by
    rw [List.length_map, ← List.countP_eq_length_filter]
    refine List.countP_congr fun c' _ => ?_
    have hlabels : labelTexts l.labels = labelTexts c.1.labels := hc
    rw [beq_iff_eq, decide_eq_true_eq, Alike, hlabels]
    exact eq_comm
  constructor
  · rintro ⟨-, g, hg, hn⟩
    obtain ⟨labels, hlabels, rfl⟩ := List.mem_map.1 hg
    obtain ⟨c, hc, rfl⟩ := List.mem_map.1 (List.mem_eraseDups.1 hlabels)
    obtain ⟨halike, rfl⟩ := (hline c _).1 hn
    rw [hcount c halike]
    exact ⟨List.countP_pos_iff.2 ⟨c, hc, by simpa using halike⟩, rfl⟩
  · rintro ⟨hpos, rfl⟩
    obtain ⟨c, hc, halike⟩ := List.countP_pos_iff.1 hpos
    have halike : Alike l c.1 := by simpa using halike
    refine ⟨List.ne_nil_of_mem hc, _, List.mem_map.2 ⟨_, List.mem_eraseDups.2
      (List.mem_map.2 ⟨c, hc, rfl⟩), rfl⟩, ?_⟩
    exact (hline c _).2 ⟨halike, (hcount c halike).symm⟩

end Lines

end Exposition

namespace MeteredRouter

open Exposition

/-- The handler of a route answered a request, and its labels are written like these. -/
def AnswersAlike (m : MeteredRouter) (l : RequestLabels) (a : Moment × Request) : Prop :=
  ∃ l', m.AnswersAs l' a ∧ Alike l l'

theorem answersAlike_iff {m : MeteredRouter} {l : RequestLabels} {a : Moment × Request} :
    m.AnswersAlike l a ↔ (m.labels? a).any (fun l' => Alike l l') = true := by
  simp [AnswersAlike, answersAs_iff, Option.any_eq_true]

instance (m : MeteredRouter) (l : RequestLabels) : DecidablePred (m.AnswersAlike l) :=
  fun _ => decidable_of_iff _ answersAlike_iff.symm

theorem not_mem_routeLabel {path : String} (h : '\\' ∉ path.toList) :
    '\\' ∉ (routeLabel path).toList := by
  intro hmem
  rw [routeLabel, String.toList_ofList] at hmem
  obtain ⟨c, hc, heq⟩ := List.mem_map.1 hmem
  have hpath : c ∈ path.toList := by
    split at hc
    · exact List.mem_of_mem_drop hc
    · exact hc
  split at heq
  · exact absurd heq (by decide)
  · exact h (heq ▸ hpath)

theorem answersAlike_iff_answersAs {m : MeteredRouter} {l : RequestLabels} {a : Moment × Request}
    (hl : Plain l) (hmethod : '\\' ∉ a.2.method.toList) (hpath : '\\' ∉ a.2.uri.path.toList) :
    m.AnswersAlike l a ↔ m.AnswersAs l a := by
  constructor
  · rintro ⟨l', hanswers, halike⟩
    have hplain : Plain l' := by
      obtain ⟨_, _, hm, hr, _⟩ := hanswers
      exact ⟨hm ▸ hmethod, hr ▸ not_mem_routeLabel hpath⟩
    obtain rfl := eq_of_labelTexts hl hplain halike
    exact hanswers
  · intro hanswers
    exact ⟨l, hanswers, rfl⟩

end MeteredRouter

namespace Traffic

open Exposition

variable {m : MeteredRouter} {events : List Event}

theorem countP_alike (h : (run m events).pending = []) (l : RequestLabels) :
    (run m events).counted.countP (fun c => Alike l c.1)
      = (answered events).countP (m.AnswersAlike l ·) := by
  refine (countP_counted h fun l' => decide (Alike l l')).trans (List.countP_congr fun a _ => ?_)
  simp [MeteredRouter.answersAlike_iff]

/-- What a service kept and tells of its requests once all responses are done with: a value for each
request that a route handler answered, and the number of these for each way in which labels are
written.  No handler's answer is touched, and no other answer counts. -/
theorem tells_of_requests {config : Config} (hvalid : config.validate = .ok ())
    (hspace : config.space = some m.space) (hdone : (run m events).pending = [])
    (descriptions : List (String × String)) :
    (∀ l, (Router.registry m.space (run m events).counted).observations.countP
        (fun o => o.metric = requestMetric m.space ∧ o.labels = l.labels)
      = (answered events).countP (m.AnswersAs l ·)) ∧
    (∀ l n, countText m.space l n ∈ lines (kept m.space (run m events).counted descriptions) ↔
      0 < n ∧ n = (answered events).countP (m.AnswersAlike l ·)) ∧
    ((∀ a ∈ answered events, '\\' ∉ a.2.method.toList ∧ '\\' ∉ a.2.uri.path.toList) →
      ∀ l n, Plain l →
        (countText m.space l n ∈ lines (kept m.space (run m events).counted descriptions) ↔
          0 < n ∧ n = (answered events).countP (m.AnswersAs l ·))) ∧
    (∀ (t : Traffic) (moment : Moment) (request : Request) (r : Route Handler),
      m.handed? request = some r →
      t.answer m moment request = (r.handler moment request,
        { t with pending := t.pending ++ [⟨(r.handler moment request).response, 0,
          some (.of request (r.handler moment request).response)⟩] })) ∧
    ∀ (t : Traffic) (moment : Moment) (request : Request), m.handed? request = none →
      ∃ reply, t.answer m moment request =
          (reply, { t with pending := t.pending ++ [⟨reply.response, 0, none⟩] }) ∧
        (reply.response.status ∈ [400, 404, 405] ∨
          ∃ tell, m.endpoint = some tell ∧ reply = tell t.counted moment request) := by
  have hname : Config.isSpace m.space = true :=
    (Config.validate_eq_ok_iff.1 hvalid).1 m.space hspace
  have hline (l : RequestLabels) (n : Nat) :
      countText m.space l n ∈ lines (kept m.space (run m events).counted descriptions) ↔
        0 < n ∧ n = (answered events).countP (m.AnswersAlike l ·) := by
    rw [countText_mem_lines_iff hname, countP_alike hdone]
  refine ⟨countP_observations hdone, hline, ?plain, ?handed, ?other⟩
  case plain =>
    intro hplain l n hl
    have hcount : (answered events).countP (m.AnswersAlike l ·)
        = (answered events).countP (m.AnswersAs l ·) := by
      refine List.countP_congr fun a ha => ?_
      simp only [decide_eq_true_eq]
      exact MeteredRouter.answersAlike_iff_answersAs hl (hplain a ha).1 (hplain a ha).2
    rw [hline, hcount]
  case handed => exact fun t moment request r h => answer_of_handed h t moment
  case other => exact fun t moment request h => answer_of_not_handed h t moment

namespace Sample

def router : MeteredRouter where
  space := "ns"
  routes := [⟨.exactly "POST" "/form", .ofResponse fun _ => { status := 202 }⟩,
    ⟨.startingWith "/a", .ofResponse fun _ => .text 200 "answer"⟩]
  endpoint := some fun _ => .ofResponse fun _ => { status := 200 }

def moment : Moment := ⟨0, fun _ => .error .unreachable⟩

def ask (method path : String) : Event :=
  .answers moment { method := method, uri := ⟨none, none, path, none⟩ }

/-- Two paths have one label.  The first response is dropped last, and no other request counts. -/
def visits : List Event := [
  ask "GET" "/a/b", ask "POST" "/form", ask "GET" "/a_b", ask "GET" "/metrics",
  ask "GET" "/a/../b", ask "GET" "/form", ask "GET" "/b",
  .reads 2 6, .ends 2 .read .zero, .ends 1 .read .zero, .reads 0 3,
  .ends 1 .dropped .zero, .ends 1 .dropped .zero, .ends 1 .dropped .zero, .ends 1 .dropped .zero,
  .ends 0 .dropped .zero]

def backslashes : List Event :=
  [ask "GET" "/a\\", ask "GET" "/a\\\\", .ends 0 .dropped .zero, .ends 0 .dropped .zero]

end Sample

/-- Of seven requests two count under one label and one under another. -/
theorem tells_of_requests_of_shared_label :
    Config.validate { space := some "ns" } = .ok () ∧
    (run Sample.router Sample.visits).pending = [] ∧
    countText "ns" ⟨"GET", "a_b", 200⟩ 2
      ∈ lines (kept "ns" (run Sample.router Sample.visits).counted []) ∧
    countText "ns" ⟨"POST", "form", 202⟩ 1
      ∈ lines (kept "ns" (run Sample.router Sample.visits).counted []) ∧
    ∀ n, countText "ns" ⟨"GET", "form", 405⟩ n
      ∉ lines (kept "ns" (run Sample.router Sample.visits).counted []) := by
  have hvalid : Config.validate { space := some "ns" } = .ok () := by decide
  have hdone : (run Sample.router Sample.visits).pending = [] := by decide +kernel
  have hplain : ∀ a ∈ answered Sample.visits,
      '\\' ∉ a.2.method.toList ∧ '\\' ∉ a.2.uri.path.toList := by decide +kernel
  obtain ⟨-, -, hline, -⟩ := tells_of_requests (m := Sample.router) hvalid rfl hdone []
  refine ⟨hvalid, hdone, ?_, ?_, ?_⟩
  · exact (hline hplain ⟨"GET", "a_b", 200⟩ 2 ⟨by decide, by decide⟩).2 (by decide +kernel)
  · exact (hline hplain ⟨"POST", "form", 202⟩ 1 ⟨by decide, by decide⟩).2 (by decide +kernel)
  · intro n hn
    have hpos := (hline hplain ⟨"GET", "form", 405⟩ n ⟨by decide, by decide⟩).1 hn
    have hzero : (answered Sample.visits).countP
        (Sample.router.AnswersAs ⟨"GET", "form", 405⟩ ·) = 0 := by decide +kernel
    omega

/-- Two requests that differ in backslashes only are told of as if they were alike. -/
theorem tells_of_backslashes_together :
    (run Sample.router Sample.backslashes).pending = [] ∧
    ¬∀ l n, countText "ns" l n
        ∈ lines (kept "ns" (run Sample.router Sample.backslashes).counted []) ↔
      0 < n ∧ n = (answered Sample.backslashes).countP (Sample.router.AnswersAs l ·) := by
  have hdone : (run Sample.router Sample.backslashes).pending = [] := by decide +kernel
  refine ⟨hdone, fun h => ?_⟩
  have hone : (answered Sample.backslashes).countP (Sample.router.AnswersAs ⟨"GET", "a\\", 200⟩ ·)
      = 1 := by decide +kernel
  have htwo : (answered Sample.backslashes).countP
      (Sample.router.AnswersAlike ⟨"GET", "a\\", 200⟩ ·) = 2 := by decide +kernel
  have hline := (h ⟨"GET", "a\\", 200⟩ 1).2 ⟨by decide, hone.symm⟩
  rw [countText_mem_lines_iff (by decide), countP_alike hdone, htwo] at hline
  exact absurd hline.2 (by decide)

end Traffic
end TenantGate
