import TenantGate.Proofs.Backends
import TenantGate.Proofs.KeyRotation
/-!
# Starts end at their first fault

A start goes through seven stages.  Each has faults of its own, and the first stage that has one
gives the error of the whole start, whatever is wrong with later ones.  What is served in the end
asks for tokens if the command line does not say otherwise.
-/

namespace TenantGate

namespace Startup

inductive Stage
  | load
  | validation
  | logging
  | metrics
  | keys
  | routes
  | binding
  deriving DecidableEq, Repr

def Stage.preparations : List Stage := [load, validation, logging, metrics, keys, routes]

def Stage.all : List Stage := preparations ++ [binding]

/-- The settings that a start goes by. -/
inductive Loads (s : Surroundings) (i : Invocation) : Config → Prop
  | defaults (hfile : i.configFile = none) : Loads s i {}
  | file {name config} (hfile : i.configFile = some name)
    (hread : Config.ofFile (s.file name) = .ok config) : Loads s i config

/-- What may be wrong at a stage, however the stages before it went.  Without settings there is
nothing to say against them. -/
inductive Fault (s : Surroundings) (i : Invocation) : Stage → StartupError → Prop
  | load {name e} (hfile : i.configFile = some name)
    (hread : Config.ofFile (s.file name) = .error e) : Fault s i .load (.config e)
  | space {config space} (hconfig : Loads s i config) (hspace : config.space = some space)
    (hinvalid : Config.isSpace space = false) :
    Fault s i .validation (.config (.invalidSpace space))
  | emptyDsn {config} (hconfig : Loads s i config)
    (hvalid : ∀ space, config.space = some space → Config.isSpace space = true)
    (hempty : config.sentryDsn = some "") : Fault s i .validation (.config .emptySentryDsn)
  | dsn {config text e} (hconfig : Loads s i config) (htext : config.sentryDsn = some text)
    (hparse : Dsn.parse text = .error e) : Fault s i .logging (.dsn e)
  | recorder {reason} (h : s.recorder = .error reason) :
    Fault s i .metrics (.metrics (.unavailable reason))
  | keys {e} (hasked : i.authenticates = true)
    (hkeys : KeySet.ofSources (s.environment KeySet.setVariable)
      (s.environment KeySet.legacyVariable) = .error e) : Fault s i .keys (.keys e)
  | routes {e} (h : FirstFault i.command.Refuses i.command.urls e) : Fault s i .routes (.setup e)
  | address {e} (h : Listen.Address.ofText i.listen = .error e) : Fault s i .binding (.listen e)
  | bind {address reason} (haddress : Listen.Address.ofText i.listen = .ok address)
    (h : s.bind address = .error reason) : Fault s i .binding (.listen (.unavailable reason))

variable {s : Surroundings} {i : Invocation} {config : Config} {e : StartupError}

theorem load_eq_ok_iff : load s i = .ok config ↔ Loads s i config := by
  unfold load
  constructor
  · intro h
    split at h
    · next hfile => exact .file hfile h
    · next hfile =>
      obtain rfl := Except.ok.inj h
      exact .defaults hfile
  · intro h
    cases h with
    | defaults hfile => rw [hfile]
    | file hfile hread =>
      rw [hfile]
      exact hread

theorem load_eq_error_iff : (load s i).mapError .config = .error e ↔ Fault s i .load e := by
  rw [Result.mapError_eq_error]
  unfold load
  constructor
  · rintro ⟨e, h, rfl⟩
    split at h
    · next hfile => exact .load hfile h
    · cases h
  · intro h
    cases h with
    | load hfile hread =>
      rw [hfile]
      exact ⟨_, hread, rfl⟩

theorem Loads.unique {config' : Config} (h : Loads s i config) (h' : Loads s i config') :
    config = config' :=
  Except.ok.inj ((load_eq_ok_iff.2 h).symm.trans (load_eq_ok_iff.2 h'))

section Loaded

variable (hconfig : Loads s i config)
include hconfig

theorem validate_eq_error_iff :
    config.validate.mapError .config = .error e ↔ Fault s i .validation e := by
  rw [Result.mapError_eq_error]
  constructor
  · rintro ⟨e, h, rfl⟩
    unfold Config.validate at h
    split at h
    · next space _ hspace =>
      split at h
      · next hinvalid =>
        cases h
        exact .space hconfig hspace (by simpa using hinvalid)
      · next hvalid =>
        split at h
        · next hempty =>
          cases h
          refine .emptyDsn hconfig (fun space' hspace' => ?_) hempty
          rw [hspace] at hspace'
          obtain rfl := Option.some.inj hspace'
          simpa using hvalid
        · cases h
    · next hspace =>
      split at h
      · next hempty =>
        cases h
        exact .emptyDsn hconfig (by simp [hspace]) hempty
      · cases h
  · intro h
    cases h with
    | space hconfig' hspace hinvalid =>
      obtain rfl := hconfig.unique hconfig'
      exact ⟨_, by simp [Config.validate, hspace, hinvalid], rfl⟩
    | emptyDsn hconfig' hvalid hempty =>
      obtain rfl := hconfig.unique hconfig'
      refine ⟨_, ?_, rfl⟩
      cases hspace : config.space with
      | none => simp [Config.validate, hspace, hempty]
      | some space => simp [Config.validate, hspace, hempty, hvalid space hspace]

theorem checkDsn_eq_error_iff :
    (checkDsn config).mapError .dsn = .error e ↔ Fault s i .logging e := by
  rw [Result.mapError_eq_error]
  constructor
  · rintro ⟨e, h, rfl⟩
    unfold checkDsn at h
    split at h
    · next text htext =>
      cases hparse : Dsn.parse text with
      | ok dsn => rw [hparse] at h; cases h
      | error e' =>
        rw [hparse] at h
        cases h
        exact .dsn hconfig htext hparse
    · cases h
  · intro h
    cases h with
    | dsn hconfig' htext hparse =>
      obtain rfl := hconfig.unique hconfig'
      refine ⟨_, ?_, rfl⟩
      simp only [checkDsn, htext, hparse]
      rfl

end Loaded

theorem installMetrics_eq_error_iff :
    (installMetrics s).mapError .metrics = .error e ↔ Fault s i .metrics e := by
  have bounded : installMetrics s = s.recorder.mapError .unavailable := rfl
  rw [bounded, Result.mapError_eq_error]
  constructor
  · rintro ⟨e, h, rfl⟩
    obtain ⟨reason, hreason, rfl⟩ := Result.mapError_eq_error.1 h
    exact .recorder hreason
  · intro h
    cases h with
    | recorder hreason => exact ⟨_, Result.mapError_eq_error.2 ⟨_, hreason, rfl⟩, rfl⟩

theorem keys_eq_error_iff : (keys s i).mapError .keys = .error e ↔ Fault s i .keys e := by
  rw [Result.mapError_eq_error]
  unfold keys
  constructor
  · rintro ⟨e, h, rfl⟩
    split at h
    · next hasked =>
      cases hkeys : KeySet.ofSources (s.environment KeySet.setVariable)
          (s.environment KeySet.legacyVariable) with
      | ok k => rw [hkeys] at h; cases h
      | error e' =>
        rw [hkeys] at h
        cases h
        exact .keys hasked hkeys
    · cases h
  · intro h
    cases h with
    | keys hasked hkeys =>
      rw [if_pos hasked, hkeys]
      exact ⟨_, rfl, rfl⟩

theorem router_eq_error_iff {resolver : Resolver} {space : String} :
    (router resolver space i.command).mapError .setup = .error e ↔ Fault s i .routes e := by
  simp only [Result.mapError_eq_error, Command.router_eq_error_iff]
  constructor
  · rintro ⟨e, h, rfl⟩
    exact .routes h
  · intro h
    cases h with
    | routes h => exact ⟨_, h, rfl⟩

theorem listen_eq_error_iff : (listen s i).mapError .listen = .error e ↔ Fault s i .binding e := by
  rw [Result.mapError_eq_error]
  unfold listen
  constructor
  · rintro ⟨e, h, rfl⟩
    cases haddress : Listen.Address.ofText i.listen with
    | error e' =>
      rw [haddress] at h
      cases h
      exact .address haddress
    | ok address =>
      cases hbind : s.bind address with
      | ok _ => rw [haddress, Result.ok_bind, hbind] at h; cases h
      | error reason =>
        rw [haddress, Result.ok_bind, hbind] at h
        cases h
        exact .bind haddress hbind
  · intro h
    cases h with
    | address h => exact ⟨_, by rw [h]; rfl, rfl⟩
    | bind haddress h => exact ⟨_, by rw [haddress, Result.ok_bind, h]; rfl, rfl⟩

theorem prepare_eq_error_iff :
    prepare s i = .error e ↔ FirstFault (Fault s i) Stage.preparations e := by
  refine FirstFault.bind_step_eq_error_iff (fun _ => load_eq_error_iff) fun config hload => ?_
  have hconfig : Loads s i config := load_eq_ok_iff.1 (Result.mapError_eq_ok.1 hload)
  refine FirstFault.bind_step_eq_error_iff (fun _ => validate_eq_error_iff hconfig) fun _ _ => ?_
  refine FirstFault.bind_step_eq_error_iff (fun _ => checkDsn_eq_error_iff hconfig) fun _ _ => ?_
  refine FirstFault.bind_step_eq_error_iff (fun _ => installMetrics_eq_error_iff) fun _ _ => ?_
  refine FirstFault.bind_step_eq_error_iff (fun _ => keys_eq_error_iff) fun keys _ => ?_
  exact FirstFault.bind_step_eq_error_iff (fun _ => router_eq_error_iff) fun _ _ =>
    FirstFault.pure_eq_error_iff

theorem start_eq_error_iff : start s i = .error e ↔ FirstFault (Fault s i) Stage.all e := by
  refine FirstFault.bind_eq_error_iff (fun _ => prepare_eq_error_iff) fun prepared _ => ?_
  exact FirstFault.bind_step_eq_error_iff (fun _ => listen_eq_error_iff) fun _ _ =>
    FirstFault.pure_eq_error_iff

/-- The environment holds these keys. -/
def HoldsKeys (s : Surroundings) (k : KeySet) : Prop :=
  KeySet.ofSources (s.environment KeySet.setVariable) (s.environment KeySet.legacyVariable) = .ok k

/-- Nothing stands in the way of listening. -/
structure Ready (s : Surroundings) (i : Invocation) : Prop where
  settings : ∃ config, Loads s i config ∧
    (∀ space, config.space = some space → Config.isSpace space = true) ∧
    config.sentryDsn ≠ some "" ∧
    ∀ text, config.sentryDsn = some text → ∃ dsn, Dsn.parse text = .ok dsn
  recorder : s.recorder = .ok ()
  keys : i.authenticates = true → ∃ k, HoldsKeys s k
  backends : ∀ url ∈ i.command.urls, i.command.Takes url

theorem Ready.not_fault (h : Ready s i) {stage : Stage} (hstage : stage ∈ Stage.preparations) :
    ¬Fault s i stage e := by
  obtain ⟨config, hconfig, hvalid, hnonempty, hdsn⟩ := h.settings
  intro hfault
  cases hfault with
  | load hfile hread =>
    have hload := load_eq_ok_iff.2 hconfig
    rw [load, hfile] at hload
    cases hread.symm.trans hload
  | space hconfig' hspace hinvalid =>
    obtain rfl := hconfig.unique hconfig'
    exact Bool.false_ne_true (hinvalid.symm.trans (hvalid _ hspace))
  | emptyDsn hconfig' _ hempty =>
    obtain rfl := hconfig.unique hconfig'
    exact hnonempty hempty
  | dsn hconfig' htext hparse =>
    obtain rfl := hconfig.unique hconfig'
    obtain ⟨_, hok⟩ := hdsn _ htext
    cases hparse.symm.trans hok
  | recorder hrecorder => cases hrecorder.symm.trans h.recorder
  | keys hasked hkeys =>
    obtain ⟨_, hk⟩ := h.keys hasked
    cases hkeys.symm.trans hk
  | routes hrefused =>
    obtain ⟨url, hurl, e, hrefuses⟩ := FirstFault.exists_iff.1 ⟨_, hrefused⟩
    exact Command.takes_iff.1 (h.backends url hurl) e hrefuses
  | address => exact absurd hstage (by decide)
  | bind => exact absurd hstage (by decide)

theorem ready_of_not_fault (h : ∀ stage ∈ Stage.preparations, ∀ e, ¬Fault s i stage e) :
    Ready s i := by
  have loaded : ∃ config, Loads s i config := by
    cases hload : load s i with
    | ok config => exact ⟨config, load_eq_ok_iff.1 hload⟩
    | error e =>
      have failed : (load s i).mapError StartupError.config = .error (.config e) := by
        rw [hload]
        rfl
      exact absurd (load_eq_error_iff.1 failed) (h .load (by decide) _)
  obtain ⟨config, hconfig⟩ := loaded
  have valid : ∀ space, config.space = some space → Config.isSpace space = true := by
    intro space hspace
    by_contra hinvalid
    rw [Bool.not_eq_true] at hinvalid
    exact h .validation (by decide) _ (.space hconfig hspace hinvalid)
  constructor
  case settings =>
    refine ⟨config, hconfig, valid, fun hempty => ?_, fun text htext => ?_⟩
    · exact h .validation (by decide) _ (.emptyDsn hconfig valid hempty)
    · cases hparse : Dsn.parse text with
      | ok dsn => exact ⟨dsn, rfl⟩
      | error e => exact absurd (.dsn hconfig htext hparse) (h .logging (by decide) _)
  case recorder =>
    cases hrecorder : s.recorder with
    | ok _ => rfl
    | error reason => exact absurd (.recorder hrecorder) (h .metrics (by decide) _)
  case keys =>
    intro hasked
    cases hkeys : KeySet.ofSources (s.environment KeySet.setVariable)
        (s.environment KeySet.legacyVariable) with
    | ok k => exact ⟨k, hkeys⟩
    | error e => exact absurd (.keys hasked hkeys) (h .keys (by decide) _)
  case backends =>
    intro url hurl
    refine Command.takes_iff.2 fun e hrefuses => ?_
    obtain ⟨e', hrefused⟩ := FirstFault.exists_iff.2 ⟨url, hurl, e, hrefuses⟩
    exact h .routes (by decide) _ (.routes hrefused)

theorem exists_prepare_eq_ok_iff : (∃ prepared, prepare s i = .ok prepared) ↔ Ready s i := by
  rw [FirstFault.exists_ok_iff fun _ => prepare_eq_error_iff]
  exact ⟨ready_of_not_fault, fun h _ hstage _ => h.not_fault hstage⟩

/-- The handler answers for this resolver, as a proxy or by taking documents. -/
def LeadsTo (own : Resolver) (handler : Handler) : Prop :=
  (∃ p : TenantProxy, p.resolver = own ∧ handler = p.handler) ∨
    ∃ (ingest : Ingest) (kind : Submission), ingest.resolver = own ∧ handler = ingest.handler kind

theorem leadsTo_of_router {resolver : Resolver} {space : String} {command : Command}
    {router : Router Handler} (h : Startup.router resolver space command = .ok router) :
    ∃ source, ∀ r ∈ router.routes, LeadsTo { resolver with source := source } r.handler := by
  by_cases hc : command.IsForwarding
  · refine ⟨resolver.source, fun r hr => ?_⟩
    obtain ⟨p, hp, _, hhandler⟩ := (Command.forwards_router hc h).proxied r hr
    exact .inl ⟨p, hp, hhandler⟩
  · cases command with
    | cortex | loki | config => exact absurd trivial hc
    | ddapi tenant url =>
      simp only [Startup.router, Service.ddapi, Result.bind_eq_ok, Result.pure_eq_ok] at h
      obtain ⟨endpoint, _, rfl⟩ := h
      refine ⟨.apiKeyQuery, fun r hr => .inr ?_⟩
      simp only [List.mem_cons, List.not_mem_nil, or_false] at hr
      obtain rfl | rfl := hr
      · exact ⟨⟨_, endpoint⟩, .series, rfl, rfl⟩
      · exact ⟨⟨_, endpoint⟩, .checkRun, rfl, rfl⟩

/-- Tenants are found as the command line says, and with all keys that there are if tokens are asked
for. -/
structure Serves (s : Surroundings) (i : Invocation) (own : Resolver) : Prop where
  fixed : ∀ tenant, own.policy = .fixed tenant ↔ i.command.tenant? = some tenant ∧ tenant ≠ ""
  any : own.policy = .any ↔ ∀ tenant, i.command.tenant? = some tenant → tenant = ""
  keyed : i.authenticates = true → ∃ k, HoldsKeys s k ∧ own.keys = some k
  unkeyed : i.authenticates = false → own.keys = none

theorem serves_of_prepare {resolver : Resolver} {router : Router Handler}
    (h : prepare s i = .ok (resolver, router)) :
    ∃ own, Serves s i own ∧ ∀ r ∈ router.routes, LeadsTo own r.handler := by
  obtain ⟨config, _, h⟩ := Result.bind_eq_ok.1 h
  obtain ⟨_, _, h⟩ := Result.bind_eq_ok.1 h
  obtain ⟨_, _, h⟩ := Result.bind_eq_ok.1 h
  obtain ⟨_, _, h⟩ := Result.bind_eq_ok.1 h
  obtain ⟨found, hfound, h⟩ := Result.bind_eq_ok.1 h
  obtain ⟨routes, hroutes, h⟩ := Result.bind_eq_ok.1 h
  obtain ⟨rfl, rfl⟩ := Prod.mk.inj (Result.pure_eq_ok.1 h)
  rw [Result.mapError_eq_ok] at hfound hroutes
  obtain ⟨source, hleads⟩ := leadsTo_of_router hroutes
  refine ⟨_, ?_, hleads⟩
  unfold keys at hfound
  constructor
  case fixed => exact fun tenant => Command.policy_eq_fixed_iff
  case any => exact Command.policy_eq_any_iff
  case keyed =>
    intro hasked
    rw [if_pos hasked] at hfound
    obtain ⟨k, hk, hsome⟩ := Result.bind_eq_ok.1 hfound
    exact ⟨k, hk, (Result.pure_eq_ok.1 hsome).symm⟩
  case unkeyed =>
    intro hasked
    rw [if_neg (by simp [hasked])] at hfound
    exact (Result.pure_eq_ok.1 hfound).symm

/-- The surroundings differ in nothing but what they hold of keys. -/
structure SameButKeys (s s' : Surroundings) : Prop where
  file : s'.file = s.file
  environment : ∀ name, name ≠ KeySet.setVariable → name ≠ KeySet.legacyVariable →
    s'.environment name = s.environment name
  bind : s'.bind = s.bind
  recorder : s'.recorder = s.recorder

theorem start_eq_of_sameButKeys {s' : Surroundings} (h : SameButKeys s s')
    (hasked : i.authenticates = false) : start s' i = start s i := by
  unfold start prepare load installMetrics keys listen
  rw [h.file, h.bind, h.recorder]
  simp only [hasked, Bool.false_eq_true, if_false]

/-- A service listens only if nothing stood in the way, and then all its routes find tenants as they
should.  Else the first stage with a fault gives the error. -/
theorem fails_closed (s : Surroundings) (i : Invocation) :
    ((∃ prepared, prepare s i = .ok prepared) ↔ Ready s i) ∧
    (∀ e, start s i = .error e ↔ FirstFault (Fault s i) Stage.all e) ∧
    (∀ gateway, start s i = .ok gateway →
      prepare s i = .ok (gateway.resolver, gateway.router)) ∧
    (∀ resolver router, prepare s i = .ok (resolver, router) →
      ∃ own, Serves s i own ∧ ∀ r ∈ router.routes, LeadsTo own r.handler) ∧
    (i.authenticates = false → ∀ s', SameButKeys s s' → start s' i = start s i) := by
  refine ⟨exists_prepare_eq_ok_iff, fun e => start_eq_error_iff, fun gateway h => ?_,
    fun resolver router => serves_of_prepare, fun hasked s' h => start_eq_of_sameButKeys h hasked⟩
  obtain ⟨⟨resolver, router⟩, hprepared, h⟩ := Result.bind_eq_ok.1 h
  obtain ⟨address, _, h⟩ := Result.bind_eq_ok.1 h
  obtain rfl := Result.pure_eq_ok.1 h
  exact hprepared

namespace Sample

open Token.Rotation

def surroundings : Surroundings where
  file _ := .missing "No such file or directory (os error 2)"
  environment name :=
    [(KeySet.setVariable, twoKeys), (KeySet.legacyVariable, second.2)].lookup name
  bind _ := .ok ()

def invocation : Invocation where
  listen := ":8080"
  command := .loki "prod" ⟨CommandLine.localhost, CommandLine.localhost⟩

theorem ready : Ready surroundings invocation where
  settings := ⟨{}, .defaults rfl, nofun, nofun, nofun⟩
  recorder := rfl
  keys _ := ⟨after, ofSources_twoKeys⟩
  backends url hurl := by
    have hlocal : url = CommandLine.localhost := by simpa [Command.urls, invocation] using hurl
    rw [hlocal]
    exact ⟨fun _ => ⟨rfl, "localhost", rfl, by decide⟩, fun hc => absurd trivial hc⟩

def bare : Surroundings := { surroundings with environment := fun _ => none }

def misdirected : Invocation :=
  { invocation with command := .ddapi "" { scheme := "file", path := "/" } }

theorem not_fault_bare (stage : Stage)
    (hstage : stage ∈ [Stage.load, .validation, .logging, .metrics]) (e : StartupError) :
    ¬Fault bare misdirected stage e := by
  have defaults {config : Config} (h : Loads bare misdirected config) : config = {} := by
    cases h with
    | defaults => rfl
    | file hfile => cases hfile
  intro h
  cases h with
  | load hfile => cases hfile
  | space hconfig hspace => rw [defaults hconfig] at hspace; cases hspace
  | emptyDsn hconfig _ hempty => rw [defaults hconfig] at hempty; cases hempty
  | dsn hconfig htext => rw [defaults hconfig] at htext; cases htext
  | recorder h => cases h
  | keys | routes | address | bind => simp at hstage

end Sample

/-- With all keys the service is ready; without them it does not even come to its bad backend. -/
theorem fails_closed_of_bare :
    (∃ prepared, prepare Sample.surroundings Sample.invocation = .ok prepared) ∧
      Fault Sample.bare Sample.misdirected .routes
        (.setup (.endpoint (.unsupportedScheme { scheme := "file", path := "/" }))) ∧
      start Sample.bare Sample.misdirected =
        .error (.keys (.missingVariable KeySet.setVariable)) := by
  refine ⟨(fails_closed _ _).1.2 Sample.ready, ?misdirected, ?bare⟩
  case misdirected => exact .routes (.here (.writtenScheme id (by decide)))
  case bare =>
    obtain ⟨_, start_eq_error, _⟩ := fails_closed Sample.bare Sample.misdirected
    have later {stage : Stage} {stages : List Stage} {e : StartupError}
        (h : stage ∈ [Stage.load, .validation, .logging, .metrics])
        (hrest : FirstFault (Fault Sample.bare Sample.misdirected) stages e) :
        FirstFault (Fault Sample.bare Sample.misdirected) (stage :: stages) e :=
      .later (Sample.not_fault_bare stage h) hrest
    refine (start_eq_error _).2 ?_
    exact later (by decide) (later (by decide) (later (by decide) (later (by decide)
      (.here (.keys rfl rfl)))))

end Startup
end TenantGate
