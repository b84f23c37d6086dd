import WxcodeAdm.Admin.Provisioning
import WxcodeAdm.Audit.System

/-! The system with its audit log and with what super-admins set up for the tenants.  A request to
set something up reads the tables of the system, and writes one row of the log. -/

namespace WxcodeAdm

open Lib

/-- What a secret is encrypted by: the packages, and the setting `WXCODE_ENCRYPTION_KEY`. -/
structure Vault where
  lib : Cryptography
  rawKey : String

structure ProvisioningEvent where
  now : Nat
  iv : List UInt8
  ivLength : iv.length = 16
  request : ProvisioningRequest
  outcome : Except PyError ProvisioningResponse

def ProvisioningEvent.ctx (cfg : Config) (e : ProvisioningEvent) : Ctx :=
  { cfg with now := e.now, draws := default }

/-- A request up to its commit. -/
def provisioningTransaction (c : Ctx) (v : Vault) (iv : List UInt8) (r : ProvisioningRequest)
    (settings : Uuid → TenantSettings) : App Provisioned := do
  let x ← provision c v.lib v.rawKey iv r settings
  flush
  flushLogs [x.row]
  return x

structure ProvisionedSys where
  audited : AuditedSys
  settings : Uuid → TenantSettings

namespace ProvisionedSys

variable (s : ProvisionedSys)

/-- The system after a request that leaves it this world, these settings and more rows. -/
def after (now : Nat) (world : World) (settings : Uuid → TenantSettings) (rows : List AuditLog) :
    ProvisionedSys where
  audited := {
    sys := { s.audited.sys with world }
    auditLogs := s.audited.auditLogs ++ rows
    clock := now }
  settings

/-- `get_session` around a request. -/
def serve (c : Ctx) (v : Vault) (iv : List UInt8) (r : ProvisioningRequest) :
    Except PyError ProvisioningResponse × ProvisionedSys :=
  match (provisioningTransaction c v iv r s.settings).atomically s.audited.sys.world with
  | (.ok x, w) => (.ok x.response, s.after c.now w x.settings [x.row])
  | (.error error, w) => (.error error, s.after c.now w s.settings [])

/-- The rows that a request adds, if it is committed. -/
def added (c : Ctx) (v : Vault) (iv : List UInt8) (r : ProvisioningRequest) : List AuditLog :=
  match (provisioningTransaction c v iv r s.settings).atomically s.audited.sys.world with
  | (.ok x, _) => [x.row]
  | (.error _, _) => []

end ProvisionedSys

inductive ProvisionedEvent where
  | audited (e : AuditedEvent)
  | provisioning (e : ProvisioningEvent)

structure Provisions (cfg : Config) (v : Vault) (s : ProvisionedSys) (e : ProvisioningEvent)
    (s' : ProvisionedSys) : Prop where
  time : s.audited.sys.now ≤ e.now ∧ s.audited.clock ≤ e.now
  presented : ∀ p, e.request.token = .signed p → p ∈ s.audited.sys.minted
  served : s.serve (e.ctx cfg) v e.iv e.request = (e.outcome, s')

inductive ProvisionedStep (cfg : Config) (v : Vault) (retentionDays : Nat) :
    ProvisionedSys → ProvisionedEvent → ProvisionedSys → Prop
  | audited {s e m} (step : AuditedStep cfg retentionDays s.audited e m) :
      ProvisionedStep cfg v retentionDays s (.audited e) { s with audited := m }
  | provisioning {s e s'} (provisions : Provisions cfg v s e s') :
      ProvisionedStep cfg v retentionDays s (.provisioning e) s'

/-! ### What a request does -/

section Requests

variable {c : Ctx} {v : Vault} {iv : List UInt8} {r : ProvisioningRequest} {w w' : World}
  {settings : Uuid → TenantSettings} {x : Provisioned}

/-- What a committed request has found and made: a super-admin, the tenant, and what the service
has made of its settings, with what it writes. -/
structure SetsUp (c : Ctx) (v : Vault) (iv : List UInt8) (r : ProvisioningRequest) (w : World)
    (settings : Uuid → TenantSettings) (admin : User) (tenant : TenantSettings) (name : String)
    (details : List (String × Json)) : Prop where
  guard : (requireAdmin c r.token).run w = .ok admin w
  known : w.db.HasTenant r.tenantId
  does : r.action.Does c v.lib v.rawKey iv (settings r.tenantId) tenant name details

/-- The row of a committed request. -/
def ProvisioningRequest.row (c : Ctx) (r : ProvisioningRequest) (admin : User) (name : String)
    (details : List (String × Json)) : AuditLog :=
  writeAudit c (Provisioning.tenantEntry c name r.tenantId admin.id details)

theorem provision_ok (hRun : (provision c v.lib v.rawKey iv r settings).run w = .ok x w') :
    w' = w ∧ ∃ admin tenant name details, SetsUp c v iv r w settings admin tenant name details ∧
      x = ⟨⟨r.action.message, c.lib.uuidText r.tenantId⟩,
        setSettings settings r.tenantId tenant, r.row c admin name details⟩ := by
  obtain ⟨admin, m, hGuard, hRest⟩ := Handler.run_bind_ok.mp hRun
  obtain ⟨_, -, -, -, -, -, -, -, rfl⟩ := requireAdmin_ok.mp hGuard
  simp only [Handler.run_query_bind, Handler.run_ensure_bind_ok, Handler.run_ofExcept_bind_ok,
    Handler.run_pure_ok] at hRest
  obtain ⟨hFound, _, hService, rfl, rfl⟩ := hRest
  obtain ⟨t, ht⟩ := Option.isSome_iff_exists.mp hFound
  obtain ⟨tenant, name, details, hDoes, rfl⟩ := ProvisioningAction.service_ok.mp hService
  exact ⟨rfl, admin, tenant, name, details, ⟨hGuard,
    ⟨t, List.mem_of_find?_eq_some ht, by simpa using List.find?_some ht⟩, hDoes⟩, rfl⟩

theorem requireAdmin_reads (token : Bearer) : Handler.Within Eq (requireAdmin c token) :=
  .bind (.ofExcept _) fun _ => .bind (.lookup _) fun _ => .bind (.ensure _ _) fun _ =>
    .bind (.query _) fun _ => .bind (.orRaise _ _) fun _ => .bind (.ensure _ _) fun _ =>
    .bind (.ensure _ _) fun _ => .pure _

theorem provisioningTransaction_reads :
    Handler.Within Eq (provisioningTransaction c v iv r settings) := by
  have hProvision : Handler.Within Eq (provision c v.lib v.rawKey iv r settings) :=
    .bind (requireAdmin_reads _) fun _ => .bind (.query _) fun _ => .bind (.ensure _ _) fun _ =>
      .bind (.ofExcept _) fun _ => .pure _
  exact .bind hProvision fun _ => .bind (.bind (.query _) fun _ => .ensure _ _) fun _ =>
    .bind (.bind (.query _) fun _ => .bind (.ensure _ _) fun _ => .ensure _ _) fun _ => .pure _

end Requests

section Steps

variable {cfg : Config} {v : Vault} {days : Nat} {s s' : ProvisionedSys} {e : ProvisioningEvent}
  {event : ProvisionedEvent} {steps : List (ProvisionedSys × ProvisionedEvent)}

/-- A request is refused and changes nothing, or is committed and changes the settings of its tenant
as its service says. -/
theorem Provisions.outcome (h : Provisions cfg v s e s') :
    s' = s.after e.now s.audited.sys.world s'.settings
      (s.added (e.ctx cfg) v e.iv e.request) ∧
    ((∃ error, e.outcome = .error error ∧ s'.settings = s.settings ∧
        s.added (e.ctx cfg) v e.iv e.request = []) ∨
      ∃ admin tenant name details,
        SetsUp (e.ctx cfg) v e.iv e.request s.audited.sys.world s.settings admin tenant name
          details ∧
        e.outcome = .ok ⟨e.request.action.message, cfg.lib.uuidText e.request.tenantId⟩ ∧
        s'.settings = setSettings s.settings e.request.tenantId tenant ∧
        s.added (e.ctx cfg) v e.iv e.request = [e.request.row (e.ctx cfg) admin name details]) := by
  have hServed := h.served
  rw [ProvisionedSys.added]
  rw [ProvisionedSys.serve] at hServed
  split at hServed
  · rename_i x w hRun
    obtain ⟨y, m, hProvision, hRest⟩ := Handler.run_bind_ok.mp (Handler.atomically_ok.mp hRun)
    obtain ⟨⟨⟩, m', hLogs, hPure⟩ := Handler.run_bind_ok.mp (run_flush_bind_ok.mp hRest).2
    obtain ⟨rfl, rfl⟩ := Handler.run_pure_ok.mp hPure
    obtain ⟨-, -, rfl⟩ := run_flushLogs_ok.mp hLogs
    obtain ⟨rfl, admin, tenant, name, details, hSets, rfl⟩ := provision_ok hProvision
    obtain ⟨hOutcome, rfl⟩ := Prod.mk.inj hServed
    exact ⟨rfl, .inr ⟨admin, tenant, name, details, hSets, hOutcome.symm, rfl, rfl⟩⟩
  · rename_i error w hRun
    obtain ⟨m, hError, rfl⟩ := Handler.atomically_error.mp hRun
    have hSame : s.audited.sys.world = m := by
      have hFinal := @provisioningTransaction_reads (e.ctx cfg) v e.iv e.request s.settings
        s.audited.sys.world
      rwa [Handler.final, hError] at hFinal
    obtain ⟨hOutcome, rfl⟩ := Prod.mk.inj hServed
    subst hSame
    exact ⟨rfl, .inl ⟨error, hOutcome.symm, rfl, rfl⟩⟩

/-- The tables of the system are left alone. -/
theorem Provisions.sys (h : Provisions cfg v s e s') : s'.audited.sys = s.audited.sys := by
  rw [h.outcome.1]
  rfl

theorem Provisions.clock (h : Provisions cfg v s e s') : s'.audited.clock = e.now := by
  rw [h.outcome.1]
  rfl

theorem ProvisionedStep.sound (hs : s.audited.sys.Sound cfg)
    (h : ProvisionedStep cfg v days s event s') : s'.audited.sys.Sound cfg := by
  cases h with
  | audited step => exact step.sound hs
  | provisioning provisions => exact provisions.sys ▸ hs

/-- The settings of a tenant stay, unless a request for the tenant is committed. -/
theorem ProvisionedStep.settings (h : ProvisionedStep cfg v days s event s') (tenantId : Uuid) :
    (s'.settings tenantId = s.settings tenantId ∧ ∀ e, event = .provisioning e →
      e.request.tenantId = tenantId → ∃ error, e.outcome = .error error) ∨
    ∃ e admin name details, event = .provisioning e ∧ e.request.tenantId = tenantId ∧
      SetsUp (e.ctx cfg) v e.iv e.request s.audited.sys.world s.settings admin
        (s'.settings tenantId) name details ∧ ∃ response, e.outcome = .ok response := by
  cases h with
  | audited => exact .inl ⟨rfl, by simp⟩
  | @provisioning e _ provisions =>
    rcases provisions.outcome.2 with ⟨error, hError, hSame, -⟩ |
      ⟨admin, tenant, name, details, hSets, hOutcome, hSettings, -⟩
    · refine .inl ⟨congrFun hSame tenantId, ?_⟩
      rintro _ ⟨⟩ -
      exact ⟨error, hError⟩
    · by_cases hTenant : e.request.tenantId = tenantId
      · refine .inr ⟨e, admin, name, details, rfl, hTenant, ?_, _, hOutcome⟩
        rw [hSettings, setSettings, if_pos hTenant.symm]
        exact hSets
      · refine .inl ⟨?_, ?_⟩
        · rw [hSettings, setSettings, if_neg fun hSame => hTenant hSame.symm]
        · rintro _ ⟨⟩ hSame
          exact absurd hSame hTenant

end Steps

/-! ### A tenant that is set up -/

def operatorStart : Sys := sampleStart
  { users := [{ sampleUser with isSuperuser := true }], tenants := [acme] }

theorem operatorStart_initial : Initial operatorStart := ⟨by decide, rfl, rfl, rfl, rfl, rfl, rfl⟩

def operatorSignedIn : Event × Sys :=
  operatorStart.sample (seconds 10) (.adminLogin "alice@example.com" "pw" none)

theorem operatorSignedIn_step :
    Step sampleConfig operatorStart operatorSignedIn.1 operatorSignedIn.2 :=
  .of_admits (by decide) (by trivial)

def operatorToken : Payload where
  sub := ⟨1⟩
  aud := some "wxcode-adm-admin"
  iat := 10
  exp := 86410
  jti := ⟨0⟩

/-- Alice has signed in as a super-admin, and nothing has been set up. -/
def setupStart : ProvisionedSys :=
  ⟨.after sampleConfig ⟨operatorStart, [], 0⟩ operatorSignedIn.1 ⟨none, ""⟩ operatorSignedIn.2,
    fun _ => {}⟩

theorem setupStart_reachable : Reachable sampleConfig setupStart.audited.sys :=
  operatorStart_initial.reachable.step operatorSignedIn_step

/-- Alice's request for Acme at a time, with what comes of it. -/
def ProvisionedSys.sample (s : ProvisionedSys) (v : Vault) (now : Nat)
    (action : ProvisioningAction) : ProvisioningEvent × ProvisionedSys :=
  (⟨now, List.replicate 16 0, rfl, ⟨.signed operatorToken, ⟨5⟩, action⟩,
    (s.serve { sampleConfig with now, draws := default } v (List.replicate 16 0)
      ⟨.signed operatorToken, ⟨5⟩, action⟩).1⟩,
    (s.serve { sampleConfig with now, draws := default } v (List.replicate 16 0)
      ⟨.signed operatorToken, ⟨5⟩, action⟩).2)

theorem sample_provisions {s : ProvisionedSys} {now : Nat} (v : Vault)
    (action : ProvisioningAction) (hSys : s.audited.sys = setupStart.audited.sys)
    (hNow : seconds 10 ≤ now) (hClock : s.audited.clock ≤ now) :
    Provisions sampleConfig v s (s.sample v now action).1 (s.sample v now action).2 where
  time := ⟨hSys ▸ hNow, hClock⟩
  presented p hp := by
    obtain rfl := Bearer.signed.inj hp
    rw [hSys]
    decide
  served := rfl

section Sample

variable (v : Vault)

def acmeNamed : ProvisioningEvent × ProvisionedSys :=
  setupStart.sample v (seconds 20) (.updateWxcodeConfig
    { databaseName := some "acme"
      databaseLength := fun _ h => Option.some.inj h ▸ by decide
      stackLength := by simp
      atLeastOneFieldSet := by simp })

def claudeRequest (token : String) (h : 1 ≤ token.length ∧ token.length ≤ 4096) :
    ClaudeTokenRequest :=
  ⟨token, "quarterly rotation", h, by decide⟩

def acmeConnected : ProvisioningEvent × ProvisionedSys :=
  (acmeNamed v).2.sample v (seconds 30)
    (.setClaudeToken (claudeRequest "sk-ant-1" (by decide)))

def acmeActivated : ProvisioningEvent × ProvisionedSys :=
  (acmeConnected v).2.sample v (seconds 40) (.activateTenant ⟨"ready", by decide⟩)

def setup : List (ProvisionedSys × ProvisionedEvent) :=
  [(setupStart, .provisioning (acmeNamed v).1),
    ((acmeNamed v).2, .provisioning (acmeConnected v).1),
    ((acmeConnected v).2, .provisioning (acmeActivated v).1)]

theorem setup_run :
    Run (ProvisionedStep sampleConfig v 365) setupStart (setup v) (acmeActivated v).2 := by
  have hNamed : Provisions sampleConfig v setupStart (acmeNamed v).1 (acmeNamed v).2 :=
    sample_provisions v _ rfl (by decide) (by decide)
  have hConnected : Provisions sampleConfig v (acmeNamed v).2 (acmeConnected v).1
      (acmeConnected v).2 :=
    sample_provisions v _ hNamed.sys (by decide)
      (hNamed.clock.trans_le (show seconds 20 ≤ seconds 30 by decide))
  have hActivated : Provisions sampleConfig v (acmeConnected v).2 (acmeActivated v).1
      (acmeActivated v).2 :=
    sample_provisions v _ (hConnected.sys.trans hNamed.sys) (by decide)
      (hConnected.clock.trans_le (show seconds 30 ≤ seconds 40 by decide))
  exact .cons (.provisioning hNamed) <| .cons (.provisioning hConnected) <|
    .single (.provisioning hActivated)

end Sample

end WxcodeAdm
