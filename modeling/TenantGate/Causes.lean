/-!
# Errors and their causes

An error has a text, and so has its cause, and the cause of its cause.  All of them are told in one
line, from the outermost to the innermost.  A cause that the line already ends with is not told
again.
-/

namespace TenantGate
namespace Causes

def endsWith (s suffix : String) : Bool := suffix.toList.isSuffixOf s.toList

def addCause (told cause : String) : String :=
  if endsWith told cause then told else told ++ ": " ++ cause

def describe (outer : String) (causes : List String) : String := causes.foldl addCause outer

@[simp] theorem describe_cons (outer cause : String) (causes : List String) :
    describe outer (cause :: causes) = describe (addCause outer cause) causes := rfl

theorem endsWith_iff {s suffix : String} :
    endsWith s suffix = true ↔ suffix.toList <:+ s.toList := by
  simp [endsWith, List.isSuffixOf_iff_suffix]

theorem prefix_addCause (told cause : String) : told.toList <+: (addCause told cause).toList := by
  unfold addCause
  split
  · exact List.prefix_rfl
  · simp only [String.toList_append, List.append_assoc]
    exact List.prefix_append _ _

theorem suffix_addCause (told cause : String) : cause.toList <:+ (addCause told cause).toList := by
  unfold addCause
  split
  · next hends => exact endsWith_iff.1 hends
  · rw [String.toList_append]
    exact List.suffix_append _ _

theorem prefix_describe (outer : String) (causes : List String) :
    outer.toList <+: (describe outer causes).toList := by
  induction causes generalizing outer with
  | nil => exact List.prefix_rfl
  | cons cause causes ih => exact (prefix_addCause outer cause).trans (ih (addCause outer cause))

end Causes
end TenantGate
