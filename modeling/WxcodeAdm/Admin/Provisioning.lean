import WxcodeAdm.Admin.ClaudeToken
import WxcodeAdm.Admin.Service
import WxcodeAdm.Audit.Service
import WxcodeAdm.Tenants.Guards

/-! What a super-admin sets up for the engine of a tenant, from `admin/service.py`: the Claude token,
the limits on Claude, the database, and the one way from `pending_setup` to `active`.  Two views show
it, and neither shows the token. -/

namespace WxcodeAdm

open Lib

/-- The columns of `tenants` for the engine, but for the token, with their defaults. -/
structure TenantSetup where
  claudeDefaultModel : String := "sonnet"
  claudeMaxConcurrentSessions : Nat := 3
  claude5hTokenBudget : Option Nat := none
  claudeWeeklyTokenBudget : Option Nat := none
  databaseName : Option String := none
  defaultTargetStack : String := "fastapi-jinja2"
  neo4jEnabled : Bool := true
  status : String := "pending_setup"
  deriving DecidableEq

structure TenantSettings extends TenantSetup where
  claudeOauthToken : Option String := none
  deriving DecidableEq

/-- What the views show: of the token, whether there is one. -/
structure ShownSettings extends TenantSetup where
  hasClaudeToken : Bool := false
  deriving DecidableEq

def TenantSettings.shown (settings : TenantSettings) : ShownSettings where
  toTenantSetup := settings.toTenantSetup
  hasClaudeToken := settings.claudeOauthToken.isSome

/-! ### Requests -/

structure AdminActionRequest where
  reason : String
  reasonLength : 1 ≤ reason.length ∧ reason.length ≤ 500

abbrev ActivateTenantRequest : Type := AdminActionRequest

structure ClaudeConfigUpdateRequest where
  claudeDefaultModel : Option String := none
  claudeMaxConcurrentSessions : Option Nat := none
  claude5hTokenBudget : Option Nat := none
  claudeWeeklyTokenBudget : Option Nat := none
  modelLength : ∀ model ∈ claudeDefaultModel, model.length ≤ 50
  sessionsRange : ∀ n ∈ claudeMaxConcurrentSessions, 1 ≤ n ∧ n ≤ 100
  atLeastOneFieldSet : ¬(claudeDefaultModel = none ∧ claudeMaxConcurrentSessions = none ∧
    claude5hTokenBudget = none ∧ claudeWeeklyTokenBudget = none)

structure WxcodeConfigUpdateRequest where
  databaseName : Option String := none
  defaultTargetStack : Option String := none
  neo4jEnabled : Option Bool := none
  databaseLength : ∀ name ∈ databaseName, 1 ≤ name.length ∧ name.length ≤ 100
  stackLength : ∀ stack ∈ defaultTargetStack, 1 ≤ stack.length ∧ stack.length ≤ 50
  atLeastOneFieldSet : ¬(databaseName = none ∧ defaultTargetStack = none ∧ neo4jEnabled = none)

/-! ### Services -/

/-- A number goes into an `INTEGER` column, or the flush raises. -/
def fitInteger (n : Nat) : Except PyError Nat :=
  if n < 2 ^ 31 then .ok n else .error (.other "DBAPIError")

/-- A field of `changes`, if the request sets it. -/
def changed {α : Type} (name : String) (json : α → Json) (value : Option α) :
    List (String × Json) :=
  value.toList.map fun v => (name, json v)

/-- A budget of `0` is none, `NULL` in the database. -/
def budgetColumn (n : Nat) : Option Nat := if n = 0 then none else some n

def budgetJson : Option Nat → Json
  | none => .null
  | some n => .int n

/-- The assignments of `update_claude_config`: a field that is not in the request stays. -/
def TenantSettings.configureClaude (tenant : TenantSettings) (body : ClaudeConfigUpdateRequest) :
    TenantSettings :=
  { tenant with
    claudeDefaultModel := body.claudeDefaultModel.getD tenant.claudeDefaultModel
    claudeMaxConcurrentSessions :=
      body.claudeMaxConcurrentSessions.getD tenant.claudeMaxConcurrentSessions
    claude5hTokenBudget :=
      (body.claude5hTokenBudget.map budgetColumn).getD tenant.claude5hTokenBudget
    claudeWeeklyTokenBudget :=
      (body.claudeWeeklyTokenBudget.map budgetColumn).getD tenant.claudeWeeklyTokenBudget }

def ClaudeConfigUpdateRequest.changes (body : ClaudeConfigUpdateRequest) : List (String × Json) :=
  changed "claude_default_model" .str body.claudeDefaultModel ++
  changed "claude_max_concurrent_sessions" (fun n => .int n) body.claudeMaxConcurrentSessions ++
  changed "claude_5h_token_budget" budgetJson (body.claude5hTokenBudget.map budgetColumn) ++
  changed "claude_weekly_token_budget" budgetJson (body.claudeWeeklyTokenBudget.map budgetColumn)

/-- The assignments of `update_wxcode_config`. -/
def TenantSettings.configureWxcode (tenant : TenantSettings) (body : WxcodeConfigUpdateRequest) :
    TenantSettings :=
  { tenant with
    databaseName := body.databaseName.or tenant.databaseName
    defaultTargetStack := body.defaultTargetStack.getD tenant.defaultTargetStack
    neo4jEnabled := body.neo4jEnabled.getD tenant.neo4jEnabled }

def WxcodeConfigUpdateRequest.changes (body : WxcodeConfigUpdateRequest) : List (String × Json) :=
  changed "database_name" .str body.databaseName ++
  changed "default_target_stack" .str body.defaultTargetStack ++
  changed "neo4j_enabled" .bool body.neo4jEnabled

namespace Provisioning

variable (c : Ctx) (lib : Cryptography) (rawKey : String)

/-- What the services of this module call `write_audit` with. -/
def tenantEntry (action : String) (tenantId actorId : Uuid) (details : List (String × Json)) :
    AuditFields where
  action
  resourceType := "tenant"
  actorId := some actorId
  resourceId := some (c.lib.uuidText tenantId)
  details

def setClaudeToken (iv : List UInt8) (tenantId : Uuid) (token reason : String) (actorId : Uuid)
    (tenant : TenantSettings) : Except PyError (TenantSettings × AuditFields) := do
  let encrypted ← encryptValue lib rawKey c.now iv token
  let stored ← fitColumn claudeTokenWidth encrypted
  return ({ tenant with claudeOauthToken := some stored },
    tenantEntry c "set_claude_token" tenantId actorId [("reason", .str reason)])

def revokeClaudeToken (tenantId : Uuid) (reason : String) (actorId : Uuid)
    (tenant : TenantSettings) : Except PyError (TenantSettings × AuditFields) :=
  if tenant.claudeOauthToken = none then
    .error (.conflict "NO_TOKEN" "Tenant has no Claude token to revoke")
  else .ok ({ tenant with claudeOauthToken := none },
    tenantEntry c "revoke_claude_token" tenantId actorId [("reason", .str reason)])

/-- The database refuses a budget only at the flush, when both are set. -/
def updateClaudeConfig (tenantId : Uuid) (body : ClaudeConfigUpdateRequest) (actorId : Uuid)
    (tenant : TenantSettings) : Except PyError (TenantSettings × AuditFields) := do
  let _ ← body.claude5hTokenBudget.mapM fitInteger
  let _ ← body.claudeWeeklyTokenBudget.mapM fitInteger
  return (tenant.configureClaude body,
    tenantEntry c "update_claude_config" tenantId actorId body.changes)

def updateWxcodeConfig (tenantId : Uuid) (body : WxcodeConfigUpdateRequest) (actorId : Uuid)
    (tenant : TenantSettings) : Except PyError (TenantSettings × AuditFields) :=
  .ok (tenant.configureWxcode body,
    tenantEntry c "update_wxcode_config" tenantId actorId body.changes)

def activateTenant (tenantId : Uuid) (reason : String) (actorId : Uuid)
    (tenant : TenantSettings) : Except PyError (TenantSettings × AuditFields) := do
  if tenant.status ≠ "pending_setup" then
    .error (.conflict "INVALID_STATUS" ("Cannot activate tenant with status '" ++ tenant.status ++
      "'. Only 'pending_setup' tenants can be activated."))
  else if tenant.databaseName = none then
    .error (.conflict "MISSING_DATABASE_NAME"
      "Tenant must have a database_name configured before activation")
  else return ({ tenant with status := "active" },
    tenantEntry c "activate_tenant" tenantId actorId
      [("reason", .str reason), ("previous_status", .str "pending_setup")])

end Provisioning

/-! ### What the services make of the settings -/

section Services

variable {c : Ctx} {lib : Cryptography} {rawKey token reason : String} {iv : List UInt8}
  {tenantId actorId : Uuid} {tenant : TenantSettings} {x : TenantSettings × AuditFields}

theorem bind_eq_ok {ε α β : Type} {x : Except ε α} {f : α → Except ε β} {b : β} :
    x >>= f = .ok b ↔ ∃ a, x = .ok a ∧ f a = .ok b := by
  cases x <;> simp [bind, Except.bind]

theorem fitColumn_ok {width : Nat} {text stored : String} :
    fitColumn width text = .ok stored ↔ text.length ≤ width ∧ text = stored := by
  unfold fitColumn
  split <;> simp_all

theorem mapM_fitInteger_ok {value stored : Option Nat} :
    value.mapM fitInteger = .ok stored ↔ (∀ n ∈ value, n < 2 ^ 31) ∧ value = stored := by
  cases value with
  | none => simp [pure, Except.pure]
  | some n =>
    simp only [Option.mapM_some, fitInteger, Option.mem_some_iff, forall_eq']
    split <;> simp_all [Functor.map, Except.map]

namespace Provisioning

theorem setClaudeToken_ok :
    setClaudeToken c lib rawKey iv tenantId token reason actorId tenant = .ok x ↔
      ∃ stored, encryptValue lib rawKey c.now iv token = .ok stored ∧
        stored.length ≤ claudeTokenWidth ∧
        ({ tenant with claudeOauthToken := some stored },
          tenantEntry c "set_claude_token" tenantId actorId [("reason", .str reason)]) = x := by
  simp only [setClaudeToken, bind_eq_ok, fitColumn_ok, pure, Except.pure, Except.ok.injEq]
  constructor
  · rintro ⟨stored, hEncrypt, _, ⟨hFits, rfl⟩, hIs⟩
    exact ⟨stored, hEncrypt, hFits, hIs⟩
  · rintro ⟨stored, hEncrypt, hFits, hIs⟩
    exact ⟨stored, hEncrypt, stored, ⟨hFits, rfl⟩, hIs⟩

theorem revokeClaudeToken_ok : revokeClaudeToken c tenantId reason actorId tenant = .ok x ↔
    tenant.claudeOauthToken ≠ none ∧ ({ tenant with claudeOauthToken := none },
      tenantEntry c "revoke_claude_token" tenantId actorId [("reason", .str reason)]) = x := by
  unfold revokeClaudeToken
  split <;> simp_all

theorem updateClaudeConfig_ok {body : ClaudeConfigUpdateRequest} :
    updateClaudeConfig c tenantId body actorId tenant = .ok x ↔
      (∀ n ∈ body.claude5hTokenBudget, n < 2 ^ 31) ∧
      (∀ n ∈ body.claudeWeeklyTokenBudget, n < 2 ^ 31) ∧
      (tenant.configureClaude body,
        tenantEntry c "update_claude_config" tenantId actorId body.changes) = x := by
  simp only [updateClaudeConfig, bind_eq_ok, mapM_fitInteger_ok, pure, Except.pure,
    Except.ok.injEq]
  constructor
  · rintro ⟨_, ⟨hFive, rfl⟩, _, ⟨hWeekly, rfl⟩, hIs⟩
    exact ⟨hFive, hWeekly, hIs⟩
  · rintro ⟨hFive, hWeekly, hIs⟩
    exact ⟨_, ⟨hFive, rfl⟩, _, ⟨hWeekly, rfl⟩, hIs⟩

theorem activateTenant_ok : activateTenant c tenantId reason actorId tenant = .ok x ↔
    tenant.status = "pending_setup" ∧ tenant.databaseName ≠ none ∧
      ({ tenant with status := "active" }, tenantEntry c "activate_tenant" tenantId actorId
        [("reason", .str reason), ("previous_status", .str "pending_setup")]) = x := by
  unfold activateTenant
  split
  · simp_all
  · split <;> simp_all [pure, Except.pure]

end Provisioning

end Services

/-! ### Routes -/

/-- The bodies of the five endpoints. -/
inductive ProvisioningAction where
  | setClaudeToken (body : ClaudeTokenRequest)
  | revokeClaudeToken (body : AdminActionRequest)
  | updateClaudeConfig (body : ClaudeConfigUpdateRequest)
  | updateWxcodeConfig (body : WxcodeConfigUpdateRequest)
  | activateTenant (body : ActivateTenantRequest)

structure ProvisioningRequest where
  token : Bearer
  tenantId : Uuid
  action : ProvisioningAction

structure ProvisioningResponse where
  message : String
  tenantId : String
  deriving DecidableEq

namespace ProvisioningAction

def message : ProvisioningAction → String
  | setClaudeToken _ => "Claude token set"
  | revokeClaudeToken _ => "Claude token revoked"
  | updateClaudeConfig _ => "Claude config updated"
  | updateWxcodeConfig _ => "WXCODE config updated"
  | activateTenant _ => "Tenant activated"

def service (c : Ctx) (lib : Cryptography) (rawKey : String) (iv : List UInt8)
    (tenantId actorId : Uuid) : ProvisioningAction → TenantSettings →
      Except PyError (TenantSettings × AuditFields)
  | setClaudeToken body =>
    Provisioning.setClaudeToken c lib rawKey iv tenantId body.token body.reason actorId
  | revokeClaudeToken body => Provisioning.revokeClaudeToken c tenantId body.reason actorId
  | updateClaudeConfig body => Provisioning.updateClaudeConfig c tenantId body actorId
  | updateWxcodeConfig body => Provisioning.updateWxcodeConfig c tenantId body actorId
  | activateTenant body => Provisioning.activateTenant c tenantId body.reason actorId

end ProvisioningAction

/-- What each service that returns has made of the settings, with what it writes. -/
inductive ProvisioningAction.Does (c : Ctx) (lib : Cryptography) (rawKey : String)
    (iv : List UInt8) (tenant : TenantSettings) :
    ProvisioningAction → TenantSettings → String → List (String × Json) → Prop
  | setClaudeToken {body stored}
      (encrypted : encryptValue lib rawKey c.now iv body.token = .ok stored)
      (fits : stored.length ≤ claudeTokenWidth) :
      Does c lib rawKey iv tenant (.setClaudeToken body)
        { tenant with claudeOauthToken := some stored } "set_claude_token"
        [("reason", .str body.reason)]
  | revokeClaudeToken {body} (there : tenant.claudeOauthToken ≠ none) :
      Does c lib rawKey iv tenant (.revokeClaudeToken body)
        { tenant with claudeOauthToken := none } "revoke_claude_token"
        [("reason", .str body.reason)]
  | updateClaudeConfig {body} (fiveHours : ∀ n ∈ body.claude5hTokenBudget, n < 2 ^ 31)
      (weekly : ∀ n ∈ body.claudeWeeklyTokenBudget, n < 2 ^ 31) :
      Does c lib rawKey iv tenant (.updateClaudeConfig body) (tenant.configureClaude body)
        "update_claude_config" body.changes
  | updateWxcodeConfig {body} :
      Does c lib rawKey iv tenant (.updateWxcodeConfig body) (tenant.configureWxcode body)
        "update_wxcode_config" body.changes
  | activateTenant {body : ActivateTenantRequest} (pending : tenant.status = "pending_setup")
      (database : tenant.databaseName ≠ none) :
      Does c lib rawKey iv tenant (.activateTenant body) { tenant with status := "active" }
        "activate_tenant"
        [("reason", .str body.reason), ("previous_status", .str "pending_setup")]

/-- A service returns when it may do what it is for, with its row. -/
theorem ProvisioningAction.service_ok {c : Ctx} {lib : Cryptography} {rawKey : String}
    {iv : List UInt8} {tenantId actorId : Uuid} {action : ProvisioningAction}
    {tenant : TenantSettings} {x : TenantSettings × AuditFields} :
    action.service c lib rawKey iv tenantId actorId tenant = .ok x ↔
      ∃ tenant' name details, action.Does c lib rawKey iv tenant tenant' name details ∧
        (tenant', Provisioning.tenantEntry c name tenantId actorId details) = x := by
  constructor
  · intro h
    cases action with
    | setClaudeToken body =>
      obtain ⟨stored, hEncrypt, hFits, hIs⟩ := Provisioning.setClaudeToken_ok.mp h
      exact ⟨_, _, _, .setClaudeToken hEncrypt hFits, hIs⟩
    | revokeClaudeToken body =>
      obtain ⟨hThere, hIs⟩ := Provisioning.revokeClaudeToken_ok.mp h
      exact ⟨_, _, _, .revokeClaudeToken hThere, hIs⟩
    | updateClaudeConfig body =>
      obtain ⟨hFive, hWeekly, hIs⟩ := Provisioning.updateClaudeConfig_ok.mp h
      exact ⟨_, _, _, .updateClaudeConfig hFive hWeekly, hIs⟩
    | updateWxcodeConfig body =>
      exact ⟨_, _, _, .updateWxcodeConfig, Except.ok.inj h⟩
    | activateTenant body =>
      obtain ⟨hPending, hDatabase, hIs⟩ := Provisioning.activateTenant_ok.mp h
      exact ⟨_, _, _, .activateTenant hPending hDatabase, hIs⟩
  · rintro ⟨tenant', name, details, hDoes, hIs⟩
    cases hDoes with
    | setClaudeToken hEncrypt hFits =>
      exact Provisioning.setClaudeToken_ok.mpr ⟨_, hEncrypt, hFits, hIs⟩
    | revokeClaudeToken hThere => exact Provisioning.revokeClaudeToken_ok.mpr ⟨hThere, hIs⟩
    | updateClaudeConfig hFive hWeekly =>
      exact Provisioning.updateClaudeConfig_ok.mpr ⟨hFive, hWeekly, hIs⟩
    | updateWxcodeConfig => exact congrArg Except.ok hIs
    | activateTenant hPending hDatabase =>
      exact Provisioning.activateTenant_ok.mpr ⟨hPending, hDatabase, hIs⟩

/-- The settings by tenant, with those of one tenant replaced. -/
def setSettings (settings : Uuid → TenantSettings) (tenantId : Uuid) (tenant : TenantSettings) :
    Uuid → TenantSettings :=
  fun id => if id = tenantId then tenant else settings id

/-- The tokens of the tenants by themselves. -/
def claudeStore (db : Db) (settings : Uuid → TenantSettings) (auditLog : List AuditEntry) :
    ClaudeStore where
  tenants := db.tenants.map fun t => ⟨t, (settings t.id).claudeOauthToken⟩
  auditLog

/-- The service on the settings is `set_claude_token` on the tokens. -/
theorem setClaudeToken_eq {c : Ctx} {lib : Cryptography} {rawKey : String} {iv : List UInt8}
    {tenantId : Uuid} {db : Db} (hTenant : db.HasTenant tenantId)
    (settings : Uuid → TenantSettings) (request : ClaudeTokenRequest) (actorId : Uuid)
    (auditLog : List AuditEntry) :
    setClaudeToken lib rawKey c.now iv tenantId request actorId
        (claudeStore db settings auditLog) =
      (Provisioning.setClaudeToken c lib rawKey iv tenantId request.token request.reason actorId
        (settings tenantId)).bind fun x => (fitDetails request.reason).map fun reason =>
          claudeStore db (setSettings settings tenantId x.1)
            (auditLog ++ [⟨x.2.action, x.2.resourceType, actorId, tenantId.text, reason⟩]) := by
  obtain ⟨t, ht, hId⟩ := hTenant
  have hAny : ((claudeStore db settings auditLog).tenants.any fun t => t.row.id = tenantId) =
      true := by
    simpa [claudeStore] using ⟨t, ht, hId⟩
  rw [setClaudeToken, if_pos hAny, Provisioning.setClaudeToken]
  cases encryptValue lib rawKey c.now iv request.token with
  | error => rfl
  | ok encrypted =>
    simp only [bind, Except.bind]
    cases fitColumn claudeTokenWidth encrypted with
    | error => rfl
    | ok stored =>
      change (fitDetails request.reason).bind _ = (fitDetails request.reason).map _
      cases fitDetails request.reason with
      | error => rfl
      | ok reason =>
        refine congrArg Except.ok ?_
        simp only [claudeStore, List.map_map, ClaudeStore.mk.injEq]
        refine ⟨List.map_congr_left fun u _ => ?_, rfl⟩
        by_cases hSame : u.id = tenantId <;> simp [setSettings, hSame]

/-- The settings and the row that a request would commit. -/
structure Provisioned where
  response : ProvisioningResponse
  settings : Uuid → TenantSettings
  row : AuditLog

/-- An endpoint behind `require_admin`; every service loads the tenant first. -/
def provision (c : Ctx) (lib : Cryptography) (rawKey : String) (iv : List UInt8)
    (r : ProvisioningRequest) (settings : Uuid → TenantSettings) : App Provisioned := do
  let admin ← requireAdmin c r.token
  let found ← .query fun db => db.tenant r.tenantId
  .ensure (found.isSome = true) (.notFound "TENANT_NOT_FOUND" "Tenant not found")
  let (tenant, entry) ←
    .ofExcept (r.action.service c lib rawKey iv r.tenantId admin.id (settings r.tenantId))
  return {
    response := ⟨r.action.message, c.lib.uuidText r.tenantId⟩
    settings := setSettings settings r.tenantId tenant
    row := writeAudit c entry }

/-! ### Views -/

structure TenantDetailResponse where
  tenant : Tenant
  planName : Option String
  planSlug : Option String
  subscriptionStatus : Option SubscriptionStatus
  memberCount : Nat
  settings : ShownSettings

def getTenantDetail (c : Ctx) (settings : Uuid → TenantSettings) (token : Bearer)
    (tenantId : Uuid) : App TenantDetailResponse := do
  let _ ← requireAdmin c token
  let found ← .query fun db => db.tenant tenantId
  let tenant ← .orRaise found (.notFound "TENANT_NOT_FOUND" "Tenant not found")
  let subscription ← .query fun db => db.subscriptionOf tenantId
  let plan ← .query fun db => subscription.bind fun s => db.plan s.planId
  let memberCount ← .query fun db => db.memberships.countP fun m => m.tenantId = tenantId
  return {
    tenant
    planName := plan.map fun p => p.name
    planSlug := plan.map fun p => p.slug
    subscriptionStatus := subscription.map fun s => s.status
    memberCount
    settings := (settings tenant.id).shown }

structure PlanLimits where
  maxProjects : Nat
  maxOutputProjects : Nat
  maxStorageGb : Nat
  tokenQuota5h : Nat
  tokenQuotaWeekly : Nat

structure WxcodeConfigResponse where
  tenantId : String
  databaseName : Option String
  defaultTargetStack : String
  neo4jEnabled : Bool
  claudeDefaultModel : String
  maxConcurrentSessions : Nat
  planLimits : Option PlanLimits

def getWxcodeConfig (c : Ctx) (settings : Uuid → TenantSettings) (token : Bearer)
    (xTenantId : Option String) (tenantId : Uuid) : App WxcodeConfigResponse := do
  let (tenant, _) ← requireRole c .developer token xTenantId
  .ensure (tenant.id = tenantId)
    (.notFound "TENANT_MISMATCH" "Tenant ID does not match current tenant context")
  let subscription ← .query fun db => db.subscriptionOf tenant.id
  let plan ← .query fun db => subscription.bind fun s => db.plan s.planId
  let setup := settings tenant.id
  return {
    tenantId := c.lib.uuidText tenant.id
    databaseName := setup.databaseName
    defaultTargetStack := setup.defaultTargetStack
    neo4jEnabled := setup.neo4jEnabled
    claudeDefaultModel := setup.claudeDefaultModel
    maxConcurrentSessions := setup.claudeMaxConcurrentSessions
    planLimits := plan.map fun p =>
      ⟨p.maxProjects, p.maxOutputProjects, p.maxStorageGb, p.tokenQuota5h, p.tokenQuotaWeekly⟩ }

end WxcodeAdm
