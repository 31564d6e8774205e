import TenantGate.Ingest.RemoteWrite
/-!
# What is sent on behalf of a submission

A delivery sends a request, and the answer may lead to another place, where it goes next.  Wherever
it goes, each request that is sent still carries the tenant.
-/

namespace TenantGate

/-- The only value of the tenant's field. -/
def Headers.Carries (h : Headers) (tenant : String) : Prop :=
  h.values Resolver.tenantHeader.text = [Bytes.ofText tenant]

/-- A URL of a place that is spoken to in HTTP. -/
def Url.SpeaksHttp (url : Url) : Prop := url.scheme = "http" ∨ url.scheme = "https"

instance (url : Url) : Decidable url.SpeaksHttp :=
  inferInstanceAs (Decidable (url.scheme = "http" ∨ url.scheme = "https"))

theorem Url.not_speaksHttp_iff {url : Url} :
    ¬url.SpeaksHttp ↔ url.scheme ≠ "http" ∧ url.scheme ≠ "https" := not_or

namespace RemoteWrite

/-- A stretch of a delivery: what was sent before, and what goes to which URL next. -/
structure Leg where
  sent : List OutboundRequest
  parcel : Parcel
  headers : Headers
  url : Url

namespace Leg

def deliver (network : Network) (hops : Nat) (leg : Leg) : Delivery :=
  RemoteWrite.deliver network hops leg.sent leg.parcel leg.headers leg.url

def IsRequestable (leg : Leg) : Prop := ∃ target, Uri.parse leg.url.text = .ok target

def request (leg : Leg) (target : Uri) : OutboundRequest := leg.parcel.addressed target leg.headers

/-- The request of a leg gets an answer. -/
def Gets (network : Network) (leg : Leg) (target : Uri) (answer : Response) : Prop :=
  Uri.parse leg.url.text = .ok target ∧ network (leg.sent ++ [leg.request target]) = .ok answer

def after (leg : Leg) (target : Uri) (answer : Response) (next : Url) : Leg where
  sent := leg.sent ++ [leg.request target]
  parcel := leg.parcel.after answer.status
  headers := nextHeaders (leg.parcel.after answer.status).headers leg.url next
  url := next

/-- The answer to a leg names the URL of the next one, which is spoken to in HTTP. -/
def Leads (network : Network) (leg next : Leg) : Prop :=
  ∃ target answer url, leg.Gets network target answer ∧ location? leg.url answer = some url ∧
    url.SpeaksHttp ∧ next = leg.after target answer url

section Steps

variable {network : Network} {hops : Nat} {leg : Leg}

theorem deliver_of_stay {target : Uri} {answer : Response} (h : leg.Gets network target answer)
    (hl : location? leg.url answer = none) :
    leg.deliver network hops = ⟨leg.sent ++ [leg.request target], accept answer⟩ := by
  obtain ⟨ht, hn⟩ := h
  unfold request at hn ⊢
  rw [deliver, RemoteWrite.deliver.eq_def]
  simp only [ht, hn, hl]

theorem deliver_of_invalid (h : ¬leg.IsRequestable) :
    leg.deliver network hops = ⟨leg.sent, .error (.invalidTarget leg.url)⟩ := by
  cases ht : Uri.parse leg.url.text with
  | error e =>
    rw [deliver, RemoteWrite.deliver.eq_def]
    simp only [ht]
  | ok target => exact absurd ⟨target, ht⟩ h

theorem deliver_of_leads {next : Leg} (h : leg.Leads network next) :
    leg.deliver network (hops + 1) = next.deliver network hops := by
  obtain ⟨target, answer, url, ⟨ht, hn⟩, hl, hs, rfl⟩ := h
  have good : ¬(url.scheme ≠ "http" ∧ url.scheme ≠ "https") := fun h => Url.not_speaksHttp_iff.2 h hs
  unfold request at hn
  conv => lhs; rw [deliver, RemoteWrite.deliver.eq_def]
  simp only [ht, hn, hl, if_neg good]
  rfl

/-- What a step of a delivery comes to: no request can be written, an answer in place is read, the
step fails after its request, or the answer leads on. -/
theorem deliver_cases (network : Network) (hops : Nat) (leg : Leg) :
    (¬leg.IsRequestable ∧
      leg.deliver network hops = ⟨leg.sent, .error (.invalidTarget leg.url)⟩) ∨
    ∃ target, Uri.parse leg.url.text = .ok target ∧
      ((∃ answer, leg.Gets network target answer ∧ location? leg.url answer = none ∧
          leg.deliver network hops = ⟨leg.sent ++ [leg.request target], accept answer⟩) ∨
        (∃ e, leg.deliver network hops = ⟨leg.sent ++ [leg.request target], .error e⟩) ∨
        ∃ fewer next, hops = fewer + 1 ∧ leg.Leads network next ∧
          leg.deliver network hops = next.deliver network fewer) := by
  cases ht : Uri.parse leg.url.text with
  | error e =>
    have invalid : ¬leg.IsRequestable := by
      rintro ⟨target, h⟩
      rw [ht] at h
      cases h
    exact .inl ⟨invalid, deliver_of_invalid invalid⟩
  | ok target =>
    refine .inr ⟨target, rfl, ?_⟩
    cases hn : network (leg.sent ++ [leg.parcel.addressed target leg.headers]) with
    | error failure =>
      refine .inr (.inl ⟨.send leg.url failure, ?_⟩)
      rw [deliver, RemoteWrite.deliver.eq_def]
      simp only [ht, hn]
      rfl
    | ok answer =>
      cases hl : location? leg.url answer with
      | none => exact .inl ⟨answer, ⟨ht, hn⟩, hl, deliver_of_stay ⟨ht, hn⟩ hl⟩
      | some next =>
        cases hops with
        | zero =>
          refine .inr (.inl ⟨.tooManyRedirects leg.url, ?_⟩)
          rw [deliver, RemoteWrite.deliver.eq_def]
          simp only [ht, hn, hl]
          rfl
        | succ fewer =>
          by_cases hs : next.SpeaksHttp
          · have leads : leg.Leads network (leg.after target answer next) :=
              ⟨target, answer, next, ⟨ht, hn⟩, hl, hs, rfl⟩
            exact .inr (.inr ⟨fewer, _, rfl, leads, deliver_of_leads leads⟩)
          · refine .inr (.inl ⟨.badRedirect next, ?_⟩)
            rw [deliver, RemoteWrite.deliver.eq_def]
            simp only [ht, hn, hl, if_pos (Url.not_speaksHttp_iff.1 hs)]
            rfl

end Steps

end Leg

/-- How a write starts, unless the series do not fit or the tenant cannot stand in a field. -/
def firstLeg? (w : RemoteWrite) (tenant : String) (series : List TimeSeries) : Option Leg :=
  (Snappy.encode? (Protobuf.writeRequest series)).bind fun body =>
    if Headers.isValue (Bytes.ofText tenant) then
      let headers := writeHeaders tenant (address w.url).2
      some ⟨[], ⟨"POST", headers, ⟨body, true⟩⟩, headers, (address w.url).1⟩
    else none

variable {w : RemoteWrite} {tenant : String} {series : List TimeSeries} {leg : Leg}

theorem firstLeg?_eq_some_iff : w.firstLeg? tenant series = some leg ↔
    ∃ body, Snappy.encode? (Protobuf.writeRequest series) = some body ∧
      Headers.isValue (Bytes.ofText tenant) = true ∧
      leg = ⟨[], ⟨"POST", writeHeaders tenant (address w.url).2, ⟨body, true⟩⟩,
        writeHeaders tenant (address w.url).2, (address w.url).1⟩ := by
  simp only [firstLeg?, Option.bind_eq_some_iff]
  apply exists_congr
  intro body
  split
  · next hlegal => simp only [hlegal, true_and, Option.some.injEq, eq_comm]
  · next hlegal => simp only [hlegal, false_and, reduceCtorEq]

theorem write_of_leg (h : w.firstLeg? tenant series = some leg) (network : Network) :
    w.write network tenant series = leg.deliver network maxRedirects := by
  obtain ⟨body, hbody, hlegal, rfl⟩ := firstLeg?_eq_some_iff.1 h
  simp only [write, hbody, hlegal]
  rfl

theorem write_of_none (h : w.firstLeg? tenant series = none) (network : Network) :
    ∃ e, (e = .invalidTenant ∨ ∃ length, e = .tooLarge length) ∧
      w.write network tenant series = ⟨[], .error e⟩ := by
  unfold write
  dsimp only
  split
  · exact ⟨_, .inr ⟨_, rfl⟩, rfl⟩
  · next body hbody =>
    split
    · exact ⟨_, .inl rfl, rfl⟩
    · next hlegal =>
      have hsome : w.firstLeg? tenant series = some _ :=
        firstLeg?_eq_some_iff.2 ⟨body, hbody, by simpa using hlegal, rfl⟩
      rw [h] at hsome
      cases hsome

theorem carries_writeHeaders (tenant : String) (credentials : Option Bytes) :
    (writeHeaders tenant credentials).Carries tenant := by
  cases credentials <;>
    simp [Headers.Carries, writeHeaders, Headers.values, versionHeader, Resolver.tenantHeader]

theorem carries_removeAll {h : Headers} {names : List String} (hc : h.Carries tenant)
    (hn : Resolver.tenantHeader.text ∉ names) : (h.removeAll names).Carries tenant := by
  rw [Headers.Carries, Headers.values_removeAll, if_neg hn]
  exact hc

theorem carries_after {p : Parcel} (hc : p.headers.Carries tenant) (status : Status) :
    (p.after status).headers.Carries tenant := by
  unfold Parcel.after
  split
  · exact carries_removeAll hc (by decide)
  · exact hc

theorem carries_nextHeaders {h : Headers} (hc : h.Carries tenant) (previous next : Url) :
    (nextHeaders h previous next).Carries tenant := by
  have kept : ∀ g : Headers, g.Carries tenant →
      ∀ value, (g.insert .referer value).Carries tenant := by
    intro g hg value
    rw [Headers.Carries, Headers.values_insert, if_neg (by decide)]
    exact hg
  have same : (if previous.host? = next.host? ∧ portNumber? previous = portNumber? next then h
      else h.removeAll ["authorization", "cookie", "cookie2", "proxy-authorization",
        "www-authenticate"]).Carries tenant := by
    split
    · exact hc
    · exact carries_removeAll hc (by decide)
  unfold nextHeaders
  dsimp only
  split
  · exact same
  · exact kept _ same _

/-- The requests that were sent carry the tenant, and so will the next one and those after it. -/
structure Leg.Carries (leg : Leg) (tenant : String) : Prop where
  sent : ∀ out ∈ leg.sent, out.headers.Carries tenant
  parcel : leg.parcel.headers.Carries tenant
  headers : leg.headers.Carries tenant

namespace Leg

variable {network : Network}

theorem Carries.append {leg : Leg} (h : leg.Carries tenant) (target : Uri) :
    ∀ out ∈ leg.sent ++ [leg.request target], out.headers.Carries tenant := by
  intro out hout
  rcases List.mem_append.1 hout with hout | hout
  · exact h.sent out hout
  · obtain rfl := List.mem_singleton.1 hout
    exact h.headers

theorem Leads.carries {leg next : Leg} (h : leg.Leads network next) (hc : leg.Carries tenant) :
    next.Carries tenant := by
  obtain ⟨target, answer, url, _, _, _, rfl⟩ := h
  have hparcel := carries_after hc.parcel answer.status
  exact ⟨hc.append target, hparcel, carries_nextHeaders hparcel leg.url url⟩

/-- A delivery sends nothing without the tenant: each step keeps it. -/
theorem carries_deliver {hops : Nat} {leg : Leg} (hc : leg.Carries tenant) :
    ∀ out ∈ (leg.deliver network hops).sent, out.headers.Carries tenant := by
  induction hops using Nat.strongRecOn generalizing leg with
  | ind hops ih =>
    rcases deliver_cases network hops leg with
      ⟨_, h⟩ | ⟨target, _, ⟨answer, _, _, h⟩ | ⟨e, h⟩ | ⟨fewer, next, rfl, leads, h⟩⟩
    · rw [h]
      exact hc.sent
    · rw [h]
      exact hc.append target
    · rw [h]
      exact hc.append target
    · rw [h]
      exact ih fewer (Nat.lt_succ_self fewer) (leads.carries hc)

end Leg

theorem write_carries (w : RemoteWrite) (network : Network) (tenant : String)
    (series : List TimeSeries) :
    ∀ out ∈ (w.write network tenant series).sent, out.headers.Carries tenant := by
  cases hleg : w.firstLeg? tenant series with
  | none =>
    obtain ⟨e, _, he⟩ := write_of_none hleg network
    simp [he]
  | some leg =>
    rw [write_of_leg hleg]
    obtain ⟨body, _, _, rfl⟩ := firstLeg?_eq_some_iff.1 hleg
    exact Leg.carries_deliver ⟨by simp, carries_writeHeaders _ _, carries_writeHeaders _ _⟩

end RemoteWrite
end TenantGate
