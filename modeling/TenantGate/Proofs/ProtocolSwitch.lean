import TenantGate.Proofs.AnswerRelay
import Mathlib.Data.List.Forall2
/-!
# Switching protocols

A client and a backend that ask to switch to the same protocol are joined, and the gateway reads
nothing of what they say from then on.  A backend that switches to something else, or without being
asked, is not let through.
-/

namespace TenantGate

namespace HopByHop

/-- A message asks to switch to a protocol: a Connection value lists the word, and the protocol is
the first of the Upgrade values. -/
def Asks (h : Headers) (protocol : Bytes) : Prop :=
  Listed h "upgrade" ∧ (h.values "upgrade").head? = some protocol

theorem upgrade?_eq_some_iff_asks {h : Headers} {protocol : Bytes} :
    upgrade? h = some protocol ↔ Asks h protocol :=
  upgrade?_eq_some_iff

theorem upgrade?_eq_none_iff {h : Headers} : upgrade? h = none ↔ ¬∃ protocol, Asks h protocol := by
  simp [Option.eq_none_iff_forall_ne_some, upgrade?_eq_some_iff_asks]

end HopByHop

namespace TenantProxy

open HopByHop

/-- Bytes that are the same, but for the case of an ASCII letter. -/
def SameLetter (a b : UInt8) : Prop :=
  a = b ∨ (65 ≤ a ∧ a ≤ 90 ∧ b = a + 32) ∨ (65 ≤ b ∧ b ≤ 90 ∧ a = b + 32)

instance (a b : UInt8) : Decidable (SameLetter a b) :=
  inferInstanceAs (Decidable (_ ∨ _ ∨ _))

theorem lower_byte_eq_iff (a b : UInt8) :
    (if 65 ≤ a ∧ a ≤ 90 then a + 32 else a) = (if 65 ≤ b ∧ b ≤ 90 then b + 32 else b) ↔
      SameLetter a b := by
  have h32 : (32 : UInt8).toNat = 32 := rfl
  simp only [SameLetter, UInt8.le_iff_toNat_le, ← UInt8.toNat_inj, UInt8.toNat_add, h32,
    apply_ite UInt8.toNat, UInt8.reduceToNat]
  have ha := a.toNat_lt
  have hb := b.toNat_lt
  split <;> split <;> omega

theorem lower_eq_lower_iff {s t : Bytes} : lower s = lower t ↔ List.Forall₂ SameLetter s t := by
  simp only [lower, ← List.forall₂_eq_eq_eq, List.forall₂_map_left_iff, List.forall₂_map_right_iff,
    lower_byte_eq_iff]

/-- Both sides of a switch ask for one protocol, which the second one writes as `offered`. -/
def Agree (inbound answer : Headers) (offered : Bytes) : Prop :=
  ∃ requested, Asks inbound requested ∧ Asks answer offered ∧
    List.Forall₂ SameLetter requested offered

theorem agreedProtocol?_eq_some_iff {inbound answer : Headers} {protocol : Bytes} :
    agreedProtocol? (upgrade? inbound) (upgrade? answer) = some protocol ↔
      Agree inbound answer protocol := by
  simp only [agreedProtocol?, Agree, ← upgrade?_eq_some_iff_asks, ← lower_eq_lower_iff,
    Option.bind_eq_bind, Option.bind_eq_some_iff]
  refine exists_congr fun requested => and_congr Iff.rfl ?_
  constructor
  · rintro ⟨offered, hoffered, h⟩
    split at h
    · next hsame =>
      obtain rfl := Option.some.inj h
      exact ⟨hoffered, hsame⟩
    · cases h
  · rintro ⟨hoffered, hsame⟩
    exact ⟨protocol, hoffered, if_pos hsame⟩

variable {p : TenantProxy} {moment : Moment} {request : Request} {sent : OutboundRequest}
  {answer : Response}

theorem handler_of_agree (h : p.Switches moment request sent answer) {offered : Bytes}
    (hagree : Agree request.headers answer.headers offered) :
    p.handler moment request =
      { response := { answer with
          headers := HopByHop.setUpgrade (HopByHop.filter answer.headers) offered }
        sent := [sent]
        tunnelled := true } := by
  simp [handler_of_switches h, switchReply, agreedProtocol?_eq_some_iff.2 hagree]

theorem handler_of_not_agree (h : p.Switches moment request sent answer)
    (hagree : ¬∃ offered, Agree request.headers answer.headers offered) :
    (p.handler moment request).response.status = 502 ∧
      (p.handler moment request).tunnelled = false := by
  have hnone : agreedProtocol? (upgrade? request.headers) (upgrade? answer.headers) = none := by
    refine Option.eq_none_iff_forall_ne_some.2 fun offered hoffered => hagree ⟨offered, ?_⟩
    exact agreedProtocol?_eq_some_iff.1 hoffered
  rw [handler_of_switches h]
  simp [switchReply, hnone, ForwardError.response, ForwardError.status, Response.text]

theorem status_relay_ne (p : TenantProxy) (path : String) (h : answer.status ≠ 101) :
    (p.relay path answer).status ≠ 101 := by
  by_cases hchanges : p.Changes path answer.status
  · rw [relay_of_changes hchanges]
    by_cases hslow : answer.status = 429 <;> simp [PushRemap.substitute, hslow]
  · rw [relay_of_not_changes hchanges]
    exact h

theorem exists_switches (h : (p.handler moment request).tunnelled = true ∨
      (p.handler moment request).response.status = 101) :
    ∃ sent answer, p.Switches moment request sent answer := by
  rcases handler_forms p moment request with
    ⟨e, he⟩ | ⟨e, sent, hstatus, he⟩ | hswitches | ⟨sent, answer, hanswers⟩
  · simp [he, AuthError.response, Response.text] at h
  · rcases hstatus with hstatus | hstatus <;>
      simp [he, ForwardError.response, Response.text, hstatus] at h
  · exact hswitches
  · rw [handler_of_answers hanswers] at h
    exact absurd h (by simp [status_relay_ne p request.uri.path hanswers.stays])

/-- The answer of a backend that switches, as the client gets it. -/
structure IsSwitched (answer : Response) (offered : Bytes) (client : Response) : Prop where
  status : client.status = 101
  body : client.body = answer.body
  connection : client.headers.values "connection" = [Bytes.ofText "upgrade"]
  upgrade : client.headers.values "upgrade" = [offered]
  headers : ∀ name, name ≠ "connection" → name ≠ "upgrade" →
    client.headers.values name = (HopByHop.filter answer.headers).values name

theorem isSwitched_of_agree (h : p.Switches moment request sent answer) {offered : Bytes}
    (hagree : Agree request.headers answer.headers offered) :
    IsSwitched answer offered (p.handler moment request).response := by
  rw [handler_of_agree h hagree]
  exact {
    status := h.switches
    body := rfl
    connection := by simp
    upgrade := by simp
    headers := fun name hc hu => by simp [hc.symm, hu.symm] }

/-- The gateway joins both sides exactly if they agree. -/
theorem joins_iff : (p.handler moment request).tunnelled = true ↔
    ∃ sent answer offered, p.Switches moment request sent answer ∧
      Agree request.headers answer.headers offered := by
  constructor
  · intro h
    obtain ⟨sent, answer, hswitches⟩ := exists_switches (.inl h)
    by_contra hnone
    have hagree : ¬∃ offered, Agree request.headers answer.headers offered :=
      fun ⟨offered, hoffered⟩ => hnone ⟨sent, answer, offered, hswitches, hoffered⟩
    rw [(handler_of_not_agree hswitches hagree).2] at h
    cases h
  · rintro ⟨sent, answer, offered, hswitches, hagree⟩
    rw [handler_of_agree hswitches hagree]

theorem status_eq_iff : (p.handler moment request).response.status = 101 ↔
    (p.handler moment request).tunnelled = true := by
  constructor
  · intro h
    obtain ⟨sent, answer, hswitches⟩ := exists_switches (.inr h)
    refine joins_iff.2 ⟨sent, answer, ?_⟩
    by_contra hnone
    have hagree : ¬∃ offered, Agree request.headers answer.headers offered :=
      fun ⟨offered, hoffered⟩ => hnone ⟨offered, hswitches, hoffered⟩
    rw [(handler_of_not_agree hswitches hagree).1] at h
    exact absurd h (by decide)
  · intro h
    obtain ⟨sent, answer, offered, hswitches, hagree⟩ := joins_iff.1 h
    exact (isSwitched_of_agree hswitches hagree).status

/-- The fields of a forwarded request that ask for a switch. -/
def Carries (h : Headers) : Prop :=
  h.values "connection" = [Bytes.ofText "upgrade"] ∧ h.values "upgrade" ≠ []

instance (h : Headers) : Decidable (Carries h) := inferInstanceAs (Decidable (_ ∧ _))

section Outbound

variable (hp : p.tenantHeader.text ≠ "connection") {inbound : Headers} (tenant : String)
  (peer : Option String)
include hp

theorem values_connection_outboundHeaders :
    (p.outboundHeaders inbound tenant peer).values "connection"
      = (keptHeaders inbound).values "connection" := by
  rw [values_outboundHeaders p inbound tenant (by simp), if_neg hp.symm]

theorem carries_of_asks {requested : Bytes} (h : Asks inbound requested) :
    Carries (p.outboundHeaders inbound tenant peer) := by
  obtain ⟨hconnection, hupgrade⟩ :=
    values_keptHeaders_of_switch (upgrade?_eq_some_iff_asks.2 h)
  refine ⟨by rw [values_connection_outboundHeaders hp, hconnection], ?_⟩
  rw [values_outboundHeaders p inbound tenant (by simp)]
  split
  · simp
  · simp [hupgrade]

theorem values_connection_of_not_asks (h : ¬∃ requested, Asks inbound requested) :
    (p.outboundHeaders inbound tenant peer).values "connection" = [] := by
  rw [values_connection_outboundHeaders hp]
  exact (values_keptHeaders_of_no_switch (upgrade?_eq_none_iff.2 h)).1

theorem carries_iff : Carries (p.outboundHeaders inbound tenant peer) ↔
    ∃ requested, Asks inbound requested := by
  constructor
  · intro h
    by_contra hnone
    have hconnection := h.1
    rw [values_connection_of_not_asks hp tenant peer hnone] at hconnection
    cases hconnection
  · rintro ⟨requested, h⟩
    exact carries_of_asks hp tenant peer h

end Outbound

/-- A client that gets a switch is joined to a backend that made the same one, every other switch is
a fault, and a backend is asked for a switch exactly if the client asks, unless the tenant is named
in the field that would ask. -/
theorem switches_protocols (p : TenantProxy) (moment : Moment) (request : Request) :
    ((p.handler moment request).response.status = 101 ∧
        (p.handler moment request).tunnelled = true ↔
      ∃ sent answer offered, p.Switches moment request sent answer ∧
        Agree request.headers answer.headers offered) ∧
    ((p.handler moment request).response.status = 101 ↔
      (p.handler moment request).tunnelled = true) ∧
    (∀ sent answer offered, p.Switches moment request sent answer →
      Agree request.headers answer.headers offered →
      IsSwitched answer offered (p.handler moment request).response) ∧
    (∀ sent answer, p.Switches moment request sent answer →
      (¬∃ offered, Agree request.headers answer.headers offered) →
      (p.handler moment request).response.status = 502 ∧
        (p.handler moment request).tunnelled = false) ∧
    (p.tenantHeader.text ≠ "connection" → ∀ out ∈ (p.handler moment request).sent,
      (Carries out.headers ↔ ∃ requested, Asks request.headers requested) ∧
      ((¬∃ requested, Asks request.headers requested) → out.headers.values "connection" = [])) := by
  refine ⟨?joined, status_eq_iff, ?client, ?fault, ?backend⟩
  case joined => rw [status_eq_iff, and_self, joins_iff]
  case client => exact fun sent answer offered h hagree => isSwitched_of_agree h hagree
  case fault => exact fun sent answer h hagree => handler_of_not_agree h hagree
  case backend =>
    intro hp out hout
    obtain ⟨tenant, _, hout⟩ := exists_of_mem_sent hout
    obtain ⟨_, _, _, rfl⟩ := outbound_eq_ok_iff.1 hout
    exact ⟨carries_iff hp _ _, values_connection_of_not_asks hp _ _⟩

namespace Sample

def switchRequest : Request where
  method := "POST"
  uri := ⟨none, none, "/api/v1/push", none⟩
  headers := ⟨[(.connection, Bytes.ofText "keep-alive, Upgrade"),
    (.upgrade, Bytes.ofText "WebSocket"), (.upgrade, Bytes.ofText "h2c")]⟩

def switchAnswer : Response where
  status := 101
  headers := ⟨[(.connection, Bytes.ofText "upgrade"), (.upgrade, Bytes.ofText "websocket"),
    (.contentType, Bytes.ofText "text/plain")]⟩

def switching : Moment := ⟨0, fun _ => .ok switchAnswer⟩

def switchSent : OutboundRequest :=
  ⟨"POST", ⟨some "http", some "127.0.0.1", "/api/v1/push", none⟩,
    ⟨[(.connection, Bytes.ofText "upgrade"), (.upgrade, Bytes.ofText "WebSocket"),
      (Resolver.tenantHeader, Bytes.ofText "t")]⟩, {}⟩

def overwriting : TenantProxy := { distributor with tenantHeader := .connection }

end Sample

/-- A switch on a path whose answers may be changed, with a protocol that the sides write
differently. -/
theorem switches_protocols_of_websocket :
    Sample.distributor.Switches Sample.switching Sample.switchRequest Sample.switchSent
        Sample.switchAnswer ∧
      Agree Sample.switchRequest.headers Sample.switchAnswer.headers (Bytes.ofText "websocket") ∧
      (Sample.distributor.handler Sample.switching Sample.switchRequest).tunnelled = true ∧
      IsSwitched Sample.switchAnswer (Bytes.ofText "websocket")
        (Sample.distributor.handler Sample.switching Sample.switchRequest).response ∧
      Sample.distributor.tenantHeader.text ≠ "connection" ∧
      ∀ out ∈ (Sample.distributor.handler Sample.switching Sample.switchRequest).sent,
        Carries out.headers := by
  have hswitches : Sample.distributor.Switches Sample.switching Sample.switchRequest
      Sample.switchSent Sample.switchAnswer :=
    ⟨⟨"t", rfl, by decide +kernel⟩, rfl, rfl⟩
  have hasks : Asks Sample.switchRequest.headers (Bytes.ofText "WebSocket") :=
    ⟨by decide +kernel, by decide +kernel⟩
  have hoffers : Asks Sample.switchAnswer.headers (Bytes.ofText "websocket") :=
    ⟨by decide +kernel, by decide +kernel⟩
  have hagree : Agree Sample.switchRequest.headers Sample.switchAnswer.headers
      (Bytes.ofText "websocket") :=
    ⟨_, hasks, hoffers, lower_eq_lower_iff.1 (by decide +kernel)⟩
  have htenant : Sample.distributor.tenantHeader.text ≠ "connection" := by decide
  obtain ⟨hjoined, -, hclient, -, hbackend⟩ :=
    switches_protocols Sample.distributor Sample.switching Sample.switchRequest
  exact ⟨hswitches, hagree, (hjoined.2 ⟨_, _, _, hswitches, hagree⟩).2,
    hclient _ _ _ hswitches hagree, htenant,
    fun out hout => (hbackend htenant out hout).1.2 ⟨_, hasks⟩⟩

/-- A tenant that is named in the Connection field takes the place of the word that asks for the
switch. -/
theorem not_carries_of_tenant_in_connection :
    ¬∀ out ∈ (Sample.overwriting.handler Sample.switching Sample.switchRequest).sent,
      (Carries out.headers ↔ ∃ requested, Asks Sample.switchRequest.headers requested) := by
  have hasks : Asks Sample.switchRequest.headers (Bytes.ofText "WebSocket") :=
    ⟨by decide +kernel, by decide +kernel⟩
  have hsent : ∃ out ∈ (Sample.overwriting.handler Sample.switching Sample.switchRequest).sent,
      ¬Carries out.headers := by
    decide +kernel
  obtain ⟨out, hout, hcarries⟩ := hsent
  exact fun h => hcarries ((h out hout).2 ⟨_, hasks⟩)

end TenantProxy
end TenantGate
