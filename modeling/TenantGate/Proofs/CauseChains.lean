import TenantGate.Proofs.Submissions
/-!
# Chains of causes

The line that tells an error and its causes begins with the error, ends with the last cause and
leaves out only what it ends with already.  Where each text ends with that of its cause, as the
texts of all refused documents do, the line is the text of the error alone.
-/

namespace TenantGate

namespace Causes

variable {outer told text cause : String} {causes : List String}

theorem suffix_describe (h : text.toList <:+ told.toList) (causes : List String) :
    ((text :: causes).getLast (List.cons_ne_nil _ _)).toList <:+ (describe told causes).toList := by
  induction causes generalizing told text with
  | nil => exact h
  | cons cause causes ih => exact ih (suffix_addCause told cause)

theorem infix_describe (h : text ∈ outer :: causes) :
    text.toList <:+: (describe outer causes).toList := by
  induction causes generalizing outer with
  | nil =>
    obtain rfl := List.mem_singleton.1 h
    exact List.infix_rfl
  | cons cause causes ih =>
    rw [describe_cons]
    rcases List.mem_cons.1 h with rfl | h
    · exact (prefix_addCause text cause).isInfix.trans (prefix_describe _ causes).isInfix
    · rcases List.mem_cons.1 h with rfl | h
      · exact (suffix_addCause outer text).isInfix.trans (prefix_describe _ causes).isInfix
      · exact ih (List.mem_cons_of_mem _ h)

theorem exists_told (outer : String) (causes : List String) :
    ∃ told, told.Sublist causes ∧ describe outer causes = ": ".intercalate (outer :: told) := by
  induction causes generalizing outer with
  | nil => exact ⟨[], List.Sublist.refl _, String.intercalate_singleton.symm⟩
  | cons cause causes ih =>
    obtain ⟨told, hsub, htold⟩ := ih (addCause outer cause)
    rw [describe_cons, htold]
    by_cases hends : endsWith outer cause = true
    · exact ⟨told, hsub.cons cause, by rw [addCause, if_pos hends]⟩
    · refine ⟨cause :: told, hsub.cons_cons cause, ?_⟩
      rw [addCause, if_neg hends, String.intercalate_cons_append, String.intercalate_cons_cons]

/-- Each text ends with that of its cause, as a text does that was written in front of it. -/
def Embeds (outer : String) (causes : List String) : Prop :=
  (outer :: causes).IsChain fun text cause => cause.toList <:+ text.toList

instance (outer : String) (causes : List String) : Decidable (Embeds outer causes) :=
  inferInstanceAs (Decidable (List.IsChain _ _))

theorem embeds_nil (outer : String) : Embeds outer [] := List.IsChain.singleton outer

theorem embeds_cons : Embeds outer (cause :: causes) ↔
    cause.toList <:+ outer.toList ∧ Embeds cause causes :=
  List.isChain_cons_cons

theorem Embeds.append (h : Embeds cause causes) (context : String) :
    Embeds (context ++ cause) (cause :: causes) := by
  refine embeds_cons.2 ⟨?_, h⟩
  rw [String.toList_append]
  exact List.suffix_append _ _

/-- A line that ends with the text of an error ends with all that the error embeds. -/
theorem Embeds.describe_eq (h : Embeds text causes) (hends : text.toList <:+ told.toList) :
    describe told causes = told := by
  induction causes generalizing text with
  | nil => rfl
  | cons cause causes ih =>
    obtain ⟨hcause, hrest⟩ := embeds_cons.1 h
    have htold := hcause.trans hends
    rw [describe_cons, addCause, if_pos (endsWith_iff.2 htold)]
    exact ih hrest htold

end Causes

namespace IngestError

open Causes

theorem embeds_messages {e : IngestError} (h : e.status = 400) :
    Embeds e.messages.1 e.messages.2 := by
  cases e with
  | contentType e => cases e <;> exact embeds_nil _
  | deflate fault => exact (embeds_nil fault.message).append _
  | document e =>
    cases e with
    | invalidJson reason => exact ((embeds_nil reason).append _).append _
  | _ => cases h

theorem response_of_status {e : IngestError} (h : e.status = 400) :
    e.response = .text 400 e.messages.1 := by
  rw [response, h, message, (embeds_messages h).describe_eq List.suffix_rfl]

end IngestError

namespace Ingest

theorem exists_refusal {i : Ingest} {kind : Submission} {moment : Moment} {request : Request}
    (h : (i.handler kind moment request).response.status = 400) :
    ∃ e, i.accept kind moment.now request = .error e ∧ e.status = 400 ∧
      i.handler kind moment request = { response := e.response } := by
  cases haccept : i.accept kind moment.now request with
  | error e =>
    have hreply : i.handler kind moment request = { response := e.response } :=
      handler_of_refused haccept
    rw [hreply] at h
    exact ⟨e, rfl, h, hreply⟩
  | ok found =>
    have admits := accept_eq_ok_iff.1 haccept
    cases hwrite : (i.endpoint.write moment.network found.1 found.2).result with
    | error e =>
      rw [handler_of_failure admits hwrite] at h
      cases h
    | ok =>
      rw [handler_of_success admits hwrite] at h
      cases h

end Ingest

namespace Causes

/-- The line of a chain starts with its error, ends with its last cause and holds every text between;
between the texts stands a mark and nothing else.  If each text embeds its cause, the line is the
first text, and so the body of a bad request is the text of its error. -/
theorem tells_whole_chain (outer : String) (causes : List String) :
    outer.toList <+: (describe outer causes).toList ∧
    ((outer :: causes).getLast (List.cons_ne_nil _ _)).toList <:+ (describe outer causes).toList ∧
    (∀ text ∈ outer :: causes, text.toList <:+: (describe outer causes).toList) ∧
    (∃ told, told.Sublist causes ∧ describe outer causes = ": ".intercalate (outer :: told)) ∧
    (Embeds outer causes → describe outer causes = outer) ∧
    ∀ (i : Ingest) kind moment request, (i.handler kind moment request).response.status = 400 →
      ∃ e, i.accept kind moment.now request = .error e ∧
        (i.handler kind moment request).response = .text 400 e.messages.1 := by
  refine ⟨prefix_describe outer causes, suffix_describe List.suffix_rfl causes,
    fun _ => infix_describe, exists_told outer causes, fun h => h.describe_eq List.suffix_rfl, ?_⟩
  intro i kind moment request h
  obtain ⟨e, haccept, hstatus, hreply⟩ := Ingest.exists_refusal h
  exact ⟨e, haccept, by rw [hreply, IngestError.response_of_status hstatus]⟩

/-- A chain in which each text embeds its cause, and a document that breaks off. -/
theorem tells_whole_chain_of_broken_document :
    let request : Request := { Ingest.Sample.submitted with body := .ofText "[" }
    let reply := Ingest.Sample.ingest.handler .checkRun ⟨0, Ingest.Sample.refusing⟩ request
    Embeds "a: b: c" ["b: c", "c"] ∧ describe "a: b: c" ["b: c", "c"] = "a: b: c" ∧
      reply.response.status = 400 ∧
      ∃ e, Ingest.Sample.ingest.accept .checkRun 0 request = .error e ∧
        reply.response = .text 400 e.messages.1 := by
  intro request reply
  have hembeds : Embeds "a: b: c" ["b: c", "c"] := by decide +kernel
  have hstatus : reply.response.status = 400 := by decide +kernel
  obtain ⟨_, _, _, _, honce, hrefused⟩ := tells_whole_chain "a: b: c" ["b: c", "c"]
  exact ⟨hembeds, honce hembeds, hstatus, hrefused _ _ _ _ hstatus⟩

end Causes
end TenantGate
