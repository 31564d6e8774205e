import TenantGate.Proofs.FirstFaults
import TenantGate.Proofs.ServiceRoutes
/-!
# Backends that a service takes

A service looks at its URLs one after the other and is set up if it takes all of them.  The first
one that it does not take gives the error.
-/

namespace TenantGate

namespace Command

open FirstFault

/-- The URLs that a service is given, in the order in which they are looked at. -/
def urls : Command → List Url
  | .cortex _ b => [b.distributor, b.ruler, b.alertmanager, b.querier]
  | .loki _ b => [b.distributor, b.querier]
  | .config b => [b.ruler, b.alertmanager]
  | .ddapi _ url => [url]

/-- Requests are forwarded in plain HTTP only; documents may be sent on over TLS. -/
def Takes (c : Command) (url : Url) : Prop :=
  (c.IsForwarding → url.scheme = "http" ∧ ∃ host, url.host? = some host ∧ host ≠ "") ∧
    (¬c.IsForwarding → (url.scheme = "http" ∨ url.scheme = "https") ∧
      ∃ host, url.host? = some host)

/-- Why a service does not take a URL. -/
inductive Refuses (c : Command) (url : Url) : SetupError → Prop
  | proxiedScheme (hc : c.IsForwarding) (hscheme : url.scheme ≠ "http") :
    Refuses c url (.backend (.unsupportedScheme url))
  | proxiedHost (hc : c.IsForwarding) (hscheme : url.scheme = "http")
    (hhost : ∀ host, url.host? = some host → host = "") :
    Refuses c url (.backend (.missingHost url))
  | writtenScheme (hc : ¬c.IsForwarding)
    (hscheme : ¬(url.scheme = "http" ∨ url.scheme = "https")) :
    Refuses c url (.endpoint (.unsupportedScheme url))
  | writtenHost (hc : ¬c.IsForwarding) (hscheme : url.scheme = "http" ∨ url.scheme = "https")
    (hhost : url.host? = none) : Refuses c url (.endpoint (.missingHost url))

variable {c : Command} {url : Url} {resolver : Resolver} {space : String} {e : SetupError}

theorem takes_iff : c.Takes url ↔ ∀ e, ¬c.Refuses url e := by
  constructor
  · rintro ⟨hproxied, hwritten⟩ e hrefuses
    cases hrefuses with
    | proxiedScheme hc hscheme => exact hscheme (hproxied hc).1
    | proxiedHost hc _ hhost =>
      obtain ⟨_, host, hsome, hne⟩ := hproxied hc
      exact hne (hhost host hsome)
    | writtenScheme hc hscheme => exact hscheme (hwritten hc).1
    | writtenHost hc _ hhost =>
      obtain ⟨_, host, hsome⟩ := hwritten hc
      cases hhost.symm.trans hsome
  · intro hnone
    refine ⟨fun hc => ?_, fun hc => ?_⟩
    · have hscheme : url.scheme = "http" := by
        by_contra hscheme
        exact hnone _ (.proxiedScheme hc hscheme)
      refine ⟨hscheme, ?_⟩
      by_contra hhost
      refine hnone _ (.proxiedHost hc hscheme fun host hsome => ?_)
      by_contra hne
      exact hhost ⟨host, hsome, hne⟩
    · have hscheme : url.scheme = "http" ∨ url.scheme = "https" := by
        by_contra hscheme
        exact hnone _ (.writtenScheme hc hscheme)
      refine ⟨hscheme, Option.ne_none_iff_exists'.1 fun hhost => ?_⟩
      exact hnone _ (.writtenHost hc hscheme hhost)

theorem proxy_eq_error_iff (hc : c.IsForwarding) :
    Service.proxy resolver url = .error e ↔ c.Refuses url e := by
  have hhost : url.host?.getD "" = "" ↔ ∀ host, url.host? = some host → host = "" := by
    cases url.host? <;> simp
  unfold Service.proxy TenantProxy.ofUrl Proxy.checkBackend
  constructor
  · intro h
    split at h
    · next hscheme => cases h; exact .proxiedScheme hc hscheme
    · next hscheme =>
      split at h
      · next hempty => cases h; exact .proxiedHost hc (not_not.1 hscheme) (hhost.1 hempty)
      · cases h
  · intro h
    cases h with
    | proxiedScheme _ hscheme => rw [if_pos hscheme]; rfl
    | proxiedHost _ hscheme hnone => rw [if_neg (not_not.2 hscheme), if_pos (hhost.2 hnone)]; rfl
    | writtenScheme hwritten => exact absurd hc hwritten
    | writtenHost hwritten => exact absurd hc hwritten

theorem ofUrl_eq_error_iff (hc : ¬c.IsForwarding) :
    (RemoteWrite.ofUrl url).mapError SetupError.endpoint = .error e ↔ c.Refuses url e := by
  simp only [RemoteWrite.ofUrl, ne_eq, ← not_or]
  constructor
  · intro h
    split at h
    · next hscheme => cases h; exact .writtenScheme hc hscheme
    · next hscheme =>
      split at h
      · next hnone =>
        cases h
        exact .writtenHost hc (not_not.1 hscheme) (Option.isNone_iff_eq_none.1 hnone)
      · cases h
  · intro h
    cases h with
    | proxiedScheme hproxied => exact absurd hproxied hc
    | proxiedHost hproxied => exact absurd hproxied hc
    | writtenScheme _ hscheme => rw [if_pos hscheme]; rfl
    | writtenHost _ hscheme hnone => rw [if_neg (not_not.2 hscheme), hnone]; rfl

/-- A service is set up unless it refuses one of its URLs. -/
theorem router_eq_error_iff : Startup.router resolver space c = .error e ↔
    FirstFault c.Refuses c.urls e := by
  cases c with
  | cortex tenant b =>
    have checked (url : Url) (e : SetupError) :
        Service.proxy resolver url = .error e ↔ (cortex tenant b).Refuses url e :=
      proxy_eq_error_iff trivial
    refine bind_step_eq_error_iff (checked b.distributor) fun _ _ => ?_
    refine bind_step_eq_error_iff (checked b.ruler) fun _ _ => ?_
    refine bind_step_eq_error_iff (checked b.alertmanager) fun _ _ => ?_
    exact bind_step_eq_error_iff (checked b.querier) fun _ _ => pure_eq_error_iff
  | loki tenant b =>
    have checked (url : Url) (e : SetupError) :
        Service.proxy resolver url = .error e ↔ (loki tenant b).Refuses url e :=
      proxy_eq_error_iff trivial
    refine bind_step_eq_error_iff (checked b.distributor) fun _ _ => ?_
    exact bind_step_eq_error_iff (checked b.querier) fun _ _ => pure_eq_error_iff
  | config b =>
    have checked (url : Url) (e : SetupError) :
        Service.proxy resolver url = .error e ↔ (config b).Refuses url e :=
      proxy_eq_error_iff trivial
    refine bind_step_eq_error_iff (checked b.ruler) fun _ _ => ?_
    exact bind_step_eq_error_iff (checked b.alertmanager) fun _ _ => pure_eq_error_iff
  | ddapi tenant endpoint =>
    have checked (e : SetupError) : (RemoteWrite.ofUrl endpoint).mapError .endpoint = .error e ↔
        (ddapi tenant endpoint).Refuses endpoint e := ofUrl_eq_error_iff id
    exact bind_step_eq_error_iff checked fun _ _ => pure_eq_error_iff

def tenant? : Command → Option String
  | .cortex tenant _ => some tenant
  | .loki tenant _ => some tenant
  | .config _ => none
  | .ddapi tenant _ => some tenant

theorem policy_eq_fixed_iff {tenant : String} :
    c.policy = .fixed tenant ↔ c.tenant? = some tenant ∧ tenant ≠ "" := by
  have named (name : String) : TenantPolicy.ofName (some name) = .fixed tenant ↔
      some name = some tenant ∧ tenant ≠ "" := by
    rw [TenantPolicy.ofName]
    by_cases hempty : name = ""
    · rw [if_pos hempty, hempty]
      exact ⟨nofun, fun ⟨heq, hne⟩ => absurd (Option.some.inj heq).symm hne⟩
    · rw [if_neg hempty, TenantPolicy.fixed.injEq, Option.some.injEq]
      exact ⟨fun heq => ⟨heq, heq ▸ hempty⟩, And.left⟩
  cases c with
  | cortex name | loki name | ddapi name => exact named name
  | config => exact ⟨nofun, nofun⟩

theorem policy_eq_any_iff :
    c.policy = .any ↔ ∀ tenant, c.tenant? = some tenant → tenant = "" := by
  constructor
  · intro hany tenant htenant
    by_contra hne
    cases hany.symm.trans (policy_eq_fixed_iff.2 ⟨htenant, hne⟩)
  · intro hempty
    cases hpolicy : c.policy with
    | any => rfl
    | fixed tenant =>
      obtain ⟨htenant, hne⟩ := policy_eq_fixed_iff.1 hpolicy
      exact absurd (hempty tenant htenant) hne

end Command
end TenantGate
