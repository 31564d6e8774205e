import TenantGate.Proofs.Delivery
import TenantGate.Proofs.SnappyRoundTrip
/-!
# Where answers lead

An answer may lead to another place, and a submission then goes there next.  A delivery succeeds
when an answer that leads nowhere is read to its end; it takes one request if the first answer
leads to no place that can be asked.
-/

namespace TenantGate
namespace RemoteWrite
namespace Leg

/-- A complete answer was read: it names no other place, whatever its status, and its body came to
its end.  Up to `hops` answers before it led there. -/
inductive Reads (network : Network) : (hops : Nat) → Leg → Prop
  | read {hops : Nat} {leg : Leg} {target : Uri} {answer : Response}
      (got : leg.Gets network target answer) (stays : location? leg.url answer = none)
      (whole : answer.body.complete = true) : Reads network hops leg
  | led {hops : Nat} {leg next : Leg} (leads : leg.Leads network next)
      (reads : Reads network hops next) : Reads network (hops + 1) leg

variable {network : Network} {hops : Nat} {leg : Leg}

theorem Leads.unique {next next' : Leg} (h : leg.Leads network next)
    (h' : leg.Leads network next') : next' = next := by
  obtain ⟨target, answer, url, ⟨ht, hn⟩, hl, _, rfl⟩ := h
  obtain ⟨target', answer', url', ⟨ht', hn'⟩, hl', _, rfl⟩ := h'
  cases ht.symm.trans ht'
  cases hn.symm.trans hn'
  cases hl.symm.trans hl'
  rfl

theorem accept_eq_ok_iff {answer : Response} :
    accept answer = .ok () ↔ answer.body.complete = true := by
  unfold accept Body.read?
  split <;> simp_all

variable (network hops)

end Leg

/-- The series fit into a compressed block. -/
def Fits (series : List TimeSeries) : Prop :=
  Snappy.roomFor (Protobuf.writeRequest series).length ≤ Snappy.maxLength

variable {w : RemoteWrite} {tenant : String} {series : List TimeSeries} {leg : Leg}

/-- A request can be written for the configured URL. -/
def IsRequestable (w : RemoteWrite) : Prop := ∃ target, Uri.parse (address w.url).1.text = .ok target

end RemoteWrite
end TenantGate
