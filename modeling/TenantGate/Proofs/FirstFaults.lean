import Mathlib.Data.List.Basic
import Mathlib.Tactic.Tauto
import TenantGate.Proofs.Results
/-!
# The first fault

Each step of a chain may have faults of its own.  The chain ends with the fault of the first step
that has one, and gives a result if there is none.
-/

namespace TenantGate

/-- The first of the steps that has a fault has this one. -/
inductive FirstFault {σ ε : Type} (fault : σ → ε → Prop) : List σ → ε → Prop
  | here {step steps e} (h : fault step e) : FirstFault fault (step :: steps) e
  | later {step steps e} (h : ∀ e', ¬fault step e') (hrest : FirstFault fault steps e) :
    FirstFault fault (step :: steps) e

namespace FirstFault

variable {σ ε α β : Type} {fault : σ → ε → Prop} {step : σ} {steps rest : List σ} {e : ε}

theorem not_nil : ¬FirstFault fault [] e := nofun

theorem cons_iff : FirstFault fault (step :: steps) e ↔
    fault step e ∨ (∀ e', ¬fault step e') ∧ FirstFault fault steps e := by
  constructor
  · intro h
    cases h with
    | here h => exact .inl h
    | later h hrest => exact .inr ⟨h, hrest⟩
  · rintro (h | ⟨h, hrest⟩)
    · exact .here h
    · exact .later h hrest

theorem singleton_iff : FirstFault fault [step] e ↔ fault step e := by
  simp [cons_iff, not_nil]

theorem exists_iff : (∃ e, FirstFault fault steps e) ↔ ∃ step ∈ steps, ∃ e, fault step e := by
  induction steps with
  | nil => simp [not_nil]
  | cons step steps ih =>
    simp only [cons_iff, exists_or, exists_and_left, ih, List.exists_mem_cons_iff]
    by_cases h : ∃ e, fault step e
    · simp [h]
    · rw [← not_exists]
      simp [h]

theorem append_iff : FirstFault fault (steps ++ rest) e ↔ FirstFault fault steps e ∨
    (∀ step ∈ steps, ∀ e', ¬fault step e') ∧ FirstFault fault rest e := by
  induction steps with
  | nil => simp [not_nil]
  | cons step steps ih =>
    simp only [List.cons_append, cons_iff, ih, List.forall_mem_cons]
    tauto

/-- Without a fault in any of its steps, and only then, there is a result. -/
theorem exists_ok_iff {x : Except ε α} (h : ∀ e, x = .error e ↔ FirstFault fault steps e) :
    (∃ a, x = .ok a) ↔ ∀ step ∈ steps, ∀ e, ¬fault step e := by
  constructor
  · rintro ⟨a, rfl⟩ step hstep e he
    obtain ⟨e', he'⟩ := exists_iff.2 ⟨step, hstep, e, he⟩
    cases (h e').2 he'
  · intro hnone
    cases x with
    | error e =>
      obtain ⟨step, hstep, e', he'⟩ := exists_iff.1 ⟨e, (h e).1 rfl⟩
      exact absurd he' (hnone step hstep e')
    | ok a => exact ⟨a, rfl⟩

/-- What is done in two parts fails with the fault that comes first in both. -/
theorem bind_eq_error_iff {x : Except ε α} {f : α → Except ε β}
    (h : ∀ e, x = .error e ↔ FirstFault fault steps e)
    (hrest : ∀ a, x = .ok a → (f a = .error e ↔ FirstFault fault rest e)) :
    (x >>= f) = .error e ↔ FirstFault fault (steps ++ rest) e := by
  rw [append_iff, ← exists_ok_iff h, ← h]
  cases hx : x with
  | error e' => simp [bind, Except.bind]
  | ok a => simp [Result.ok_bind, hrest a hx]

theorem bind_step_eq_error_iff {x : Except ε α} {f : α → Except ε β}
    (h : ∀ e, x = .error e ↔ fault step e)
    (hrest : ∀ a, x = .ok a → (f a = .error e ↔ FirstFault fault rest e)) :
    (x >>= f) = .error e ↔ FirstFault fault (step :: rest) e := by
  have single (e : ε) : x = .error e ↔ FirstFault fault [step] e := (h e).trans singleton_iff.symm
  exact bind_eq_error_iff single hrest

theorem pure_eq_error_iff {a : α} : (pure a : Except ε α) = .error e ↔ FirstFault fault [] e := by
  simp [pure, Except.pure, not_nil]

end FirstFault
end TenantGate
