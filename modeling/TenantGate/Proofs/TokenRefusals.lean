import TenantGate.Proofs.AuthenticationGate
/-!
# What refused clients are told

A client whose token is not good is told so and nothing else: whatever is wrong with the token, or
if it is one of another tenant, the answer is the same.  What is refused is decided by the
credential, before anything else of the request is looked at.
-/

namespace TenantGate

/-- The handlers that find out tenants with a resolver: all proxies and both kinds of submissions. -/
inductive Resolver.Serves (r : Resolver) : Handler → Prop
  | proxy {p : TenantProxy} (hp : p.resolver = r) : Serves r p.handler
  | ingest {i : Ingest} (hi : i.resolver = r) (kind : Submission) : Serves r (i.handler kind)

namespace Resolver

/-- A request holds a credential, which does not lead to a tenant. -/
def TurnsDown (r : Resolver) (now : Int) (request : Request) : Prop :=
  (∃ token, r.credential request = .ok token) ∧ ∃ e, r.resolve now request = .error e

section Resolution

variable {r : Resolver} {keys : KeySet} (hkeys : r.keys = some keys) {request : Request}
include hkeys

/-- A credential leads to no tenant if it is no good token or one of another tenant. -/
theorem resolve_eq_error_iff {now : Int} {token : String} {e : AuthError}
    (hcredential : r.credential request = .ok token) :
    r.resolve now request = .error e ↔
      (∃ reason, Token.verify keys now token = .error reason ∧ e = .badToken reason) ∨
      ∃ tenant own, Token.verify keys now token = .ok tenant ∧ r.policy = .fixed own ∧
        tenant ≠ own ∧ e = .wrongTenant tenant := by
  have found : r.verifiedTenant keys now request
      = (Token.verify keys now token).mapError .badToken := by
    simp [verifiedTenant, hcredential, bind, Except.bind]
  cases hpolicy : r.policy with
  | any =>
    simp only [resolve, hpolicy, hkeys, found]
    cases Token.verify keys now token <;> simp [eq_comm]
  | fixed expected =>
    simp only [resolve, hpolicy, hkeys, found]
    cases Token.verify keys now token with
    | error reason => simp [bind, Except.bind, eq_comm]
    | ok tenant =>
      by_cases hown : tenant = expected
      · simp [hown, bind, Except.bind, pure, Except.pure]
      · have hne : expected ≠ tenant := Ne.symm hown
        simp [hown, hne, bind, Except.bind, throw, throwThe, MonadExceptOf.throw, eq_comm]

/-- What is told of a token tells neither what is wrong with it nor whose it is. -/
theorem response_of_credential {now : Int} {token : String} {e : AuthError}
    (hcredential : r.credential request = .ok token) (h : r.resolve now request = .error e) :
    e.response = .text 401 "bad authentication token" := by
  rcases (resolve_eq_error_iff hkeys hcredential).1 h with
    ⟨reason, _, rfl⟩ | ⟨tenant, own, _, _, _, rfl⟩
  · rfl
  · rfl

/-- With keys, all that counts of a request is its credential. -/
theorem resolve_of_credential {request' : Request}
    (hcredential : r.credential request = r.credential request') (now : Int) :
    r.resolve now request = r.resolve now request' := by
  have found : r.verifiedTenant keys now request = r.verifiedTenant keys now request' := by
    simp only [verifiedTenant, hcredential]
  cases hpolicy : r.policy <;> simp only [resolve, hpolicy, hkeys, found]

end Resolution

/-- A handler asks for the tenant first, and goes no further without one. -/
theorem Serves.handler_of_error {r : Resolver} {handler : Handler} (hs : r.Serves handler)
    {moment : Moment} {request : Request} {e : AuthError}
    (h : r.resolve moment.now request = .error e) :
    handler moment request = { response := e.response } := by
  cases hs with
  | proxy hp =>
    subst hp
    simp [TenantProxy.handler, h]
  | @ingest i hi kind =>
    subst hi
    have refused : i.accept kind moment.now request = .error (.unauthorized e) := by
      simp [Ingest.accept, h, bind, Except.bind]
    exact Ingest.handler_of_refused refused

/-- Two clients whose tokens are turned down get the same response, and what a client without a tenant
gets depends on the credential alone. -/
theorem refusals_alike {r : Resolver} {keys : KeySet} (hkeys : r.keys = some keys)
    {handler handler' : Handler} (hs : r.Serves handler) (hs' : r.Serves handler')
    (moment moment' : Moment) (request request' : Request) :
    (r.TurnsDown moment.now request → r.TurnsDown moment'.now request' →
      (handler moment request).response = (handler' moment' request').response) ∧
    (moment.now = moment'.now → r.credential request = r.credential request' →
      (∃ e, r.resolve moment.now request = .error e) →
      handler moment request = handler' moment' request') := by
  constructor
  · rintro ⟨⟨token, hc⟩, e, he⟩ ⟨⟨token', hc'⟩, e', he'⟩
    rw [hs.handler_of_error he, hs'.handler_of_error he']
    exact (response_of_credential hkeys hc he).trans (response_of_credential hkeys hc' he').symm
  · rintro hnow hc ⟨e, he⟩
    have he' : r.resolve moment'.now request' = .error e := by
      rw [← hnow, ← resolve_of_credential hkeys hc moment.now]
      exact he
    rw [hs.handler_of_error he, hs'.handler_of_error he']

namespace Sample

def resolver : Resolver := { policy := .fixed "u", keys := some Token.sampleKeys }

def request (token : String) (body : Body) : Request where
  uri := ⟨none, none, "/api/v1/series", none⟩
  headers := ⟨[(.authorization, Bytes.ofText ("Bearer " ++ token))]⟩
  body := body

def moment : Moment := ⟨8, fun _ => .error .refused⟩

def proxy : TenantProxy where
  resolver := resolver
  backend := { scheme := "http", authority := some { host := "127.0.0.1" }, path := "/" }

def ingest : Ingest where
  resolver := resolver
  endpoint := { url := proxy.backend }

theorem turnsDown_other : resolver.TurnsDown 8 (request Token.sampleToken {}) := by
  have hverify := Token.sampleToken_verifies
  have hbearer : Credential.bearer (request Token.sampleToken {}).headers = .ok Token.sampleToken :=
    Credential.bearer_of_verify hverify rfl
  have hcredential : resolver.credential (request Token.sampleToken {}) = .ok Token.sampleToken :=
    hbearer
  exact ⟨⟨_, hcredential⟩, _,
    (resolve_eq_error_iff rfl hcredential).2 (.inr ⟨"t", "u", hverify, rfl, by decide, rfl⟩)⟩

theorem turnsDown_malformed : resolver.TurnsDown 8 (request "x" {}) :=
  ⟨⟨"x", by decide +kernel⟩, .badToken (.malformedHeader .invalidToken), by decide +kernel⟩

end Sample

/-- A proxy that gets a token of another tenant answers as a submission with a malformed token is
answered, whatever is submitted. -/
theorem refusals_alike_of_other_tenant :
    Sample.resolver.TurnsDown 8 (Sample.request Token.sampleToken {}) ∧
      Sample.resolver.TurnsDown 8 (Sample.request "x" {}) ∧
      (Sample.proxy.handler Sample.moment (Sample.request Token.sampleToken {})).response
        = (Sample.ingest.handler .series Sample.moment (Sample.request "x" {})).response ∧
      Sample.ingest.handler .series Sample.moment (Sample.request "x" {})
        = Sample.ingest.handler .checkRun Sample.moment (Sample.request "x" (.ofText "[]")) := by
  have other := Sample.turnsDown_other
  have malformed := Sample.turnsDown_malformed
  have proxied : Sample.resolver.Serves Sample.proxy.handler :=
    .proxy (p := Sample.proxy) rfl
  have series : Sample.resolver.Serves (Sample.ingest.handler .series) :=
    .ingest (i := Sample.ingest) rfl .series
  have checks : Sample.resolver.Serves (Sample.ingest.handler .checkRun) :=
    .ingest (i := Sample.ingest) rfl .checkRun
  refine ⟨other, malformed, ?_, ?_⟩
  · exact (refusals_alike rfl proxied series Sample.moment Sample.moment _ _).1 other malformed
  · exact (refusals_alike rfl series checks Sample.moment Sample.moment _ _).2 rfl rfl malformed.2

end Resolver
end TenantGate
