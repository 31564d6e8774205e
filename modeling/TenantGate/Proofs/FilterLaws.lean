import TenantGate.Proofs.OutboundHead
/-!
# Laws of the connection filter

What the filter leaves says nothing about the connection any more: it asks for no switch, and a
second pass finds nothing to drop.  The two fields of a switch that are put back are the only ones
that another pass takes away.
-/

namespace TenantGate

namespace HopByHop

variable {h : Headers}

theorem fields_filter (h : Headers) :
    (filter h).fields = h.fields.filter fun f => f.1.text ∉ droppedNames h :=
  Headers.fields_removeAll h (droppedNames h)

/-- No field has a standard name, so that none lists further names either. -/
def Clean (h : Headers) : Prop := ∀ f ∈ h.fields, f.1.text ∉ standardNames

theorem clean_filter (h : Headers) : Clean (filter h) := by
  intro f hf
  rw [fields_filter, List.mem_filter, decide_eq_true_eq] at hf
  exact fun hname => hf.2 (List.mem_append_left _ hname)

namespace Clean

variable (hc : Clean h)
include hc

theorem values_eq_nil {name : String} (hname : name ∈ standardNames) : h.values name = [] := by
  simp only [Headers.values, List.map_eq_nil_iff, List.filter_eq_nil_iff, beq_iff_eq]
  rintro f hf rfl
  exact hc f hf hname

theorem tokens_eq_nil : tokens h = [] := by
  have hnone : h.values "connection" = [] := hc.values_eq_nil (by decide)
  simp [tokens, hnone]

theorem upgrade?_eq_none : upgrade? h = none := by
  simp [upgrade?, hc.tokens_eq_nil]

theorem filter_fields : h.fields.filter (fun f => f.1.text ∉ standardNames) = h.fields :=
  List.filter_eq_self.2 fun f hf => decide_eq_true (hc f hf)

theorem filter_eq_self : filter h = h := by
  have hnames : droppedNames h = standardNames := by simp [droppedNames, hc.tokens_eq_nil]
  apply Headers.ext
  rw [fields_filter, hnames, hc.filter_fields]

theorem fields_setUpgrade (protocol : Bytes) : (setUpgrade h protocol).fields =
    h.fields ++ [(.connection, Bytes.ofText "upgrade"), (.upgrade, protocol)] := by
  have other (name : String) (hname : name ∈ standardNames) :
      h.fields.filter (fun f => f.1.text != name) = h.fields := by
    rw [List.filter_eq_self]
    intro f hf
    exact bne_iff_ne.2 fun heq => hc f hf (heq ▸ hname)
  have hconnection := other "connection" (by decide)
  have hupgrade := other "upgrade" (by decide)
  simp [setUpgrade, Headers.insert, Headers.append, Headers.remove, hconnection, hupgrade]

end Clean

theorem tokens_setUpgrade (h : Headers) (protocol : Bytes) :
    tokens (setUpgrade h protocol) = ["upgrade"] := by
  have hlisted : (setUpgrade h protocol).values "connection" = [Bytes.ofText "upgrade"] := by simp
  rw [tokens, hlisted]
  decide +kernel

theorem upgrade?_setUpgrade (h : Headers) (protocol : Bytes) :
    upgrade? (setUpgrade h protocol) = some protocol := by
  simp [upgrade?, tokens_setUpgrade, Headers.get?]

/-- The one token of a switch names a field that is dropped anyway. -/
theorem mem_droppedNames_setUpgrade {protocol : Bytes} {name : String} :
    name ∈ droppedNames (setUpgrade h protocol) ↔ name ∈ standardNames := by
  have hname : Headers.name? "upgrade" = some "upgrade" := by decide +kernel
  simp only [droppedNames, tokens_setUpgrade, List.filterMap_cons, hname, List.filterMap_nil,
    List.mem_append, List.mem_singleton, or_iff_left_iff_imp]
  rintro rfl
  decide

theorem Clean.filter_setUpgrade (hc : Clean h) (protocol : Bytes) :
    filter (setUpgrade h protocol) = h := by
  apply Headers.ext
  simp only [fields_filter, mem_droppedNames_setUpgrade, hc.fields_setUpgrade, List.filter_append,
    hc.filter_fields]
  simp [standardNames]

/-- The filter drops the values of each name of a connection and keeps all others.  What it leaves
stays as it is when it is filtered again, asks for no switch, and after a switch was put back asks
for that one; dropping the switch gives back what was left. -/
theorem filter_laws (h : Headers) (protocol : Bytes) :
    (∀ name, (filter h).values name =
      if name ∈ standardNames ∨ Listed h name then [] else h.values name) ∧
    filter (filter h) = filter h ∧
    upgrade? (filter h) = none ∧
    upgrade? (setUpgrade (filter h) protocol) = some protocol ∧
    filter (setUpgrade (filter h) protocol) = filter h := by
  have hc := clean_filter h
  exact ⟨values_filter_eq h, hc.filter_eq_self, hc.upgrade?_eq_none,
    upgrade?_setUpgrade _ protocol, hc.filter_setUpgrade protocol⟩

namespace Sample

def via : HeaderName := ⟨"via", by decide +kernel⟩

def first : HeaderName := ⟨"x-first", by decide +kernel⟩

def second : HeaderName := ⟨"x-second", by decide +kernel⟩

end Sample

open HopByHop.Sample in
/-- Names are listed by two Connection values in any case, and one of them names the field itself. -/
theorem filter_laws_of_two_lists :
    let h : Headers := ⟨[(.connection, Bytes.ofText "Upgrade, X-First"), (via, Bytes.ofText "a"),
      (second, Bytes.ofText "2"), (.connection, Bytes.ofText " x-SECOND,, Connection, no name"),
      (first, Bytes.ofText "1"), (.upgrade, Bytes.ofText "h2c"), (via, Bytes.ofText "b")]⟩
    let protocol := Bytes.ofText "websocket"
    (filter h).values "x-second" = [] ∧
    (filter h).values "via" = [Bytes.ofText "a", Bytes.ofText "b"] ∧
    filter (filter h) = filter h ∧
    upgrade? (filter h) = none ∧
    upgrade? (setUpgrade (filter h) protocol) = some protocol ∧
    filter (setUpgrade (filter h) protocol) = filter h := by
  intro h protocol
  obtain ⟨hvalues, hlaws⟩ := filter_laws h protocol
  have hlisted : "x-second" ∈ standardNames ∨ Listed h "x-second" := by decide +kernel
  have hother : ¬("via" ∈ standardNames ∨ Listed h "via") := by decide +kernel
  have hvia : h.values "via" = [Bytes.ofText "a", Bytes.ofText "b"] := by decide +kernel
  exact ⟨(hvalues _).trans (if_pos hlisted), ((hvalues _).trans (if_neg hother)).trans hvia, hlaws⟩

end HopByHop
end TenantGate
