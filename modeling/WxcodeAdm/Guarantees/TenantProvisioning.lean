import WxcodeAdm.Admin.ProvisioningSystem
import WxcodeAdm.Guarantees.AuditTrail
import WxcodeAdm.Guarantees.ResetTokens
import WxcodeAdm.Guarantees.TokenColumn

/-! What is set up for the tenants over the runs of the system.  The settings stay within their
bounds, a tenant becomes active once and with a database, and the audit log says what they are. -/

namespace WxcodeAdm

open Lib

/-! ### Bounds -/

/-- The settings as the engine can rely on them. -/
structure TenantSettings.Proper (s : TenantSettings) : Prop where
  status : s.status = "pending_setup" ∨ s.status = "active"
  database : s.status = "active" → s.databaseName.isSome = true
  databaseLength : ∀ name ∈ s.databaseName, 1 ≤ name.length ∧ name.length ≤ 100
  stackLength : 1 ≤ s.defaultTargetStack.length ∧ s.defaultTargetStack.length ≤ 50
  modelLength : s.claudeDefaultModel.length ≤ 50
  sessions : 1 ≤ s.claudeMaxConcurrentSessions ∧ s.claudeMaxConcurrentSessions ≤ 100
  fiveHours : ∀ n ∈ s.claude5hTokenBudget, 0 < n ∧ n < 2 ^ 31
  weekly : ∀ n ∈ s.claudeWeeklyTokenBudget, 0 < n ∧ n < 2 ^ 31
  token : ∀ token ∈ s.claudeOauthToken, token.length ≤ claudeTokenWidth

theorem TenantSettings.proper_default : ({} : TenantSettings).Proper where
  status := .inl rfl
  database h := by simp at h
  databaseLength := by simp
  stackLength := by decide
  modelLength := by decide
  sessions := by decide
  fiveHours := by simp
  weekly := by simp
  token := by simp

/-- A field of a partial update is as bounded as the one that it replaces. -/
theorem getD_bounded {α : Type} {P : α → Prop} {value : Option α} {old : α}
    (hValue : ∀ a ∈ value, P a) (hOld : P old) : P (value.getD old) := by
  cases value with
  | none => exact hOld
  | some a => exact hValue a rfl

theorem budget_bounded {value old : Option Nat} (hValue : ∀ n ∈ value, n < 2 ^ 31)
    (hOld : ∀ n ∈ old, 0 < n ∧ n < 2 ^ 31) :
    ∀ n ∈ (value.map budgetColumn).getD old, 0 < n ∧ n < 2 ^ 31 := by
  cases value with
  | none => exact hOld
  | some b =>
    intro n hn
    simp only [Option.map_some, Option.getD_some, budgetColumn] at hn
    split at hn
    · cases hn
    · obtain rfl := Option.some.inj hn
      exact ⟨by omega, hValue _ rfl⟩

section Actions

variable {c : Ctx} {lib : Cryptography} {rawKey name : String} {iv : List UInt8}
  {tenant tenant' : TenantSettings} {details : List (String × Json)} {action : ProvisioningAction}

theorem ProvisioningAction.Does.proper (h : action.Does c lib rawKey iv tenant tenant' name details)
    (hProper : tenant.Proper) : tenant'.Proper := by
  cases h with
  | setClaudeToken _ fits =>
    exact { hProper with token := fun _ hToken => Option.some.inj hToken ▸ fits }
  | revokeClaudeToken => exact { hProper with token := by simp }
  | @updateClaudeConfig body fiveHours weekly =>
    exact { hProper with
      modelLength := getD_bounded (P := fun m : String => m.length ≤ 50) body.modelLength
        hProper.modelLength
      sessions := getD_bounded (P := fun n => 1 ≤ n ∧ n ≤ 100) body.sessionsRange hProper.sessions
      fiveHours := budget_bounded fiveHours hProper.fiveHours
      weekly := budget_bounded weekly hProper.weekly }
  | @updateWxcodeConfig body =>
    exact { hProper with
      database := fun h => by simp [TenantSettings.configureWxcode, hProper.database h]
      databaseLength := fun name hName => by
        rcases Option.or_eq_some_iff.mp hName with hNew | ⟨-, hOld⟩
        · exact body.databaseLength name hNew
        · exact hProper.databaseLength name hOld
      stackLength := getD_bounded (P := fun t : String => 1 ≤ t.length ∧ t.length ≤ 50)
        body.stackLength hProper.stackLength }
  | activateTenant _ database =>
    exact { hProper with
      status := .inr rfl
      database := fun _ => Option.isSome_iff_ne_none.mpr database }

def ProvisioningAction.activates : ProvisioningAction → Bool
  | activateTenant _ => true
  | _ => false

/-- The status changes by an activation only, from `pending_setup` to `active`. -/
theorem ProvisioningAction.Does.status
    (h : action.Does c lib rawKey iv tenant tenant' name details) :
    if action.activates then tenant.status = "pending_setup" ∧ tenant'.status = "active"
    else tenant'.status = tenant.status := by
  cases h with
  | activateTenant pending => exact ⟨pending, rfl⟩
  | _ => rfl

end Actions

section Lifecycle

variable {cfg : Config} {v : Vault} {days : Nat} {s s' : ProvisionedSys}
  {steps : List (ProvisionedSys × ProvisionedEvent)}

/-- A committed activation of the tenant. -/
def activates (tenantId : Uuid) (p : ProvisionedSys × ProvisionedEvent) : Bool :=
  match p.2 with
  | .provisioning e =>
    e.request.tenantId = tenantId && e.request.action.activates && e.outcome.isOk
  | .audited _ => false

theorem ProvisionedStep.hasTenant {event : ProvisionedEvent} (hs : s.audited.sys.Sound cfg)
    (h : ProvisionedStep cfg v days s event s') {id : Uuid}
    (hHas : s.audited.sys.world.db.HasTenant id) : s'.audited.sys.world.db.HasTenant id := by
  cases h with
  | audited step =>
    cases step with
    | request serves =>
      rcases serves.step_or_rolledBack hs with hStep | ⟨-, hDb⟩
      · exact hStep.hasTenant hs hHas
      · exact hDb ▸ hHas
    | purge => exact hHas
  | provisioning provisions => exact provisions.sys ▸ hHas

/-- The settings of every tenant are proper, a tenant is active exactly when one activation of it was
committed, and never are there two, and a workspace that is yet to be founded will have the
defaults. -/
theorem tenant_lifecycle (hReach : Reachable cfg s.audited.sys) (hNew : ∀ id, s.settings id = {})
    (hRun : Run (ProvisionedStep cfg v days) s steps s') (tenantId : Uuid) :
    (s'.settings tenantId).Proper ∧
      steps.countP (activates tenantId) =
        (if (s'.settings tenantId).status = "active" then 1 else 0) ∧
      (¬s'.audited.sys.world.db.HasTenant tenantId → s'.settings tenantId = {}) := by
  suffices h : s'.audited.sys.Sound cfg ∧ (s'.settings tenantId).Proper ∧
      steps.countP (activates tenantId) =
        (if (s'.settings tenantId).status = "active" then 1 else 0) ∧
      (¬s'.audited.sys.world.db.HasTenant tenantId → s'.settings tenantId = {}) from h.2
  induction hRun with
  | nil => exact ⟨hReach.sound, by simp [hNew, TenantSettings.proper_default]⟩
  | @snoc steps m s' event hBefore hLast ih =>
    obtain ⟨hs, hProper, hCount, hDefault⟩ := ih
    refine ⟨hLast.sound hs, ?_⟩
    rw [List.countP_append, List.countP_singleton, hCount]
    rcases hLast.settings tenantId with ⟨hSame, hRefused⟩ |
      ⟨e, admin, name, details, rfl, rfl, hSets, response, hOutcome⟩
    · have hNone : activates tenantId (m, event) = false := by
        cases event with
        | audited => rfl
        | provisioning e =>
          by_cases hTenant : e.request.tenantId = tenantId
          · obtain ⟨error, hError⟩ := hRefused e rfl hTenant
            simp [activates, hError, Except.isOk, Except.toBool]
          · simp [activates, hTenant]
      rw [hSame, hNone]
      exact ⟨hProper, rfl, fun hNot => hDefault fun hHas => hNot (hLast.hasTenant hs hHas)⟩
    · refine ⟨hSets.does.proper hProper, ?_, fun hNot => ?_⟩
      · have hActivates : activates e.request.tenantId (m, .provisioning e) =
            e.request.action.activates := by
          simp [activates, hOutcome, Except.isOk, Except.toBool]
        have hStatus := hSets.does.status
        rw [hActivates]
        split at hStatus
        · rename_i hIs
          rw [hStatus.1, hStatus.2, hIs]
          rfl
        · rename_i hOther
          rw [hStatus, if_neg hOther, Nat.add_zero]
      · exact absurd (hLast.hasTenant hs hSets.known) hNot

end Lifecycle

/-! ### The settings by the audit log -/

/-- What one field of `details` says of the settings. -/
def ShownSettings.setField (s : ShownSettings) : String × Json → ShownSettings
  | ("claude_default_model", .str model) => { s with claudeDefaultModel := model }
  | ("claude_max_concurrent_sessions", .int n) => { s with claudeMaxConcurrentSessions := n.toNat }
  | ("claude_5h_token_budget", .int n) => { s with claude5hTokenBudget := some n.toNat }
  | ("claude_5h_token_budget", .null) => { s with claude5hTokenBudget := none }
  | ("claude_weekly_token_budget", .int n) => { s with claudeWeeklyTokenBudget := some n.toNat }
  | ("claude_weekly_token_budget", .null) => { s with claudeWeeklyTokenBudget := none }
  | ("database_name", .str name) => { s with databaseName := some name }
  | ("default_target_stack", .str stack) => { s with defaultTargetStack := stack }
  | ("neo4j_enabled", .bool enabled) => { s with neo4jEnabled := enabled }
  | _ => s

/-- What an action says of the settings. -/
def ShownSettings.act (s : ShownSettings) (action : String) (details : List (String × Json)) :
    ShownSettings :=
  match action with
  | "set_claude_token" => { s with hasClaudeToken := true }
  | "revoke_claude_token" => { s with hasClaudeToken := false }
  | "update_claude_config" | "update_wxcode_config" => details.foldl setField s
  | "activate_tenant" => { s with status := "active" }
  | _ => s

/-- The settings of the tenant with this text, by one more row of the audit log. -/
def ShownSettings.replay (tenant : String) (s : ShownSettings) (row : AuditLog) : ShownSettings :=
  if row.resourceType = "tenant" ∧ row.resourceId = some tenant then s.act row.action row.details
  else s

/-- The actions of this part of the system. -/
def provisioningActions : List String :=
  ["set_claude_token", "revoke_claude_token", "update_claude_config", "update_wxcode_config",
    "activate_tenant"]

theorem ShownSettings.replay_foreign {tenant : String} {row : AuditLog}
    (h : row.action ∉ provisioningActions) (s : ShownSettings) : s.replay tenant row = s := by
  unfold ShownSettings.replay ShownSettings.act
  split
  · split <;> simp_all [provisioningActions]
  · rfl

theorem ShownSettings.foldl_replay_foreign {tenant : String} {rows : List AuditLog}
    (h : ∀ row ∈ rows, row.action ∉ provisioningActions) (s : ShownSettings) :
    rows.foldl (replay tenant) s = s := by
  induction rows with
  | nil => rfl
  | cons row rows ih =>
    rw [List.foldl_cons, replay_foreign (h row List.mem_cons_self)]
    exact ih fun later hLater => h later (List.mem_cons_of_mem _ hLater)

/-! A field that a request does not set is in no row, and the row of one that it sets says its
value. -/

namespace ShownSettings

variable (s : ShownSettings)

theorem foldl_model (value : Option String) :
    (changed "claude_default_model" .str value).foldl setField s =
      { s with claudeDefaultModel := value.getD s.claudeDefaultModel } := by
  cases value <;> rfl

theorem foldl_sessions (value : Option Nat) :
    (changed "claude_max_concurrent_sessions" (fun n => .int n) value).foldl setField s =
      { s with claudeMaxConcurrentSessions := value.getD s.claudeMaxConcurrentSessions } := by
  cases value <;> rfl

theorem foldl_fiveHours (value : Option (Option Nat)) :
    (changed "claude_5h_token_budget" budgetJson value).foldl setField s =
      { s with claude5hTokenBudget := value.getD s.claude5hTokenBudget } := by
  rcases value with _ | _ | n <;> rfl

theorem foldl_weekly (value : Option (Option Nat)) :
    (changed "claude_weekly_token_budget" budgetJson value).foldl setField s =
      { s with claudeWeeklyTokenBudget := value.getD s.claudeWeeklyTokenBudget } := by
  rcases value with _ | _ | n <;> rfl

theorem foldl_database (value : Option String) :
    (changed "database_name" .str value).foldl setField s =
      { s with databaseName := value.or s.databaseName } := by
  cases value <;> rfl

theorem foldl_stack (value : Option String) :
    (changed "default_target_stack" .str value).foldl setField s =
      { s with defaultTargetStack := value.getD s.defaultTargetStack } := by
  cases value <;> rfl

theorem foldl_neo4j (value : Option Bool) :
    (changed "neo4j_enabled" .bool value).foldl setField s =
      { s with neo4jEnabled := value.getD s.neo4jEnabled } := by
  cases value <;> rfl

end ShownSettings

section Replay

variable {c : Ctx} {o : Occasion} {lib : Cryptography} {rawKey name : String} {iv : List UInt8}
  {tenant tenant' : TenantSettings} {details : List (String × Json)} {action : ProvisioningAction}

/-- The row of an action says what the action has made of the settings. -/
theorem ProvisioningAction.Does.act (h : action.Does c lib rawKey iv tenant tenant' name details) :
    tenant.shown.act name details = tenant'.shown := by
  cases h with
  | setClaudeToken => rfl
  | revokeClaudeToken => rfl
  | @updateClaudeConfig body =>
    simp only [ShownSettings.act, ClaudeConfigUpdateRequest.changes, List.foldl_append,
      ShownSettings.foldl_model, ShownSettings.foldl_sessions, ShownSettings.foldl_fiveHours,
      ShownSettings.foldl_weekly]
    rfl
  | @updateWxcodeConfig body =>
    simp only [ShownSettings.act, WxcodeConfigUpdateRequest.changes, List.foldl_append,
      ShownSettings.foldl_database, ShownSettings.foldl_stack, ShownSettings.foldl_neo4j]
    rfl
  | activateTenant => rfl

/-- The other requests write rows of other actions. -/
theorem audited_foreign (r : Request) :
    Returns (fun x : AuditedResponse => ∀ row ∈ x.2, row.action ∉ provisioningActions)
      (audited c o r) := by
  have hRow (response : Response) {entry : AuditFields}
      (hOther : entry.action ∉ provisioningActions) :
      Returns (fun x : AuditedResponse => ∀ row ∈ x.2, row.action ∉ provisioningActions)
        (return (response, [writeAudit c entry]) : App AuditedResponse) :=
    .pure (List.forall_mem_singleton.mpr hOther)
  cases r with
  | login email password device ua ip =>
    refine .bind fun result => .bind fun user => ?_
    have hWritten (action : String) (hOther : action ∉ provisioningActions) :
        ∀ row ∈ user.toList.map fun user => writeAudit c
          { action, resourceType := "session", actorId := some user.id, ipAddress := ip },
          row.action ∉ provisioningActions := by
      simp only [List.mem_map]
      rintro _ ⟨_, -, rfl⟩
      exact hOther
    cases result with
    | mfaRequired => exact .pure (hWritten _ (by decide))
    | tokens => exact .bind fun _ => .pure (hWritten _ (by decide))
  | adminLogout token refreshToken =>
    refine .bind fun _ => .bind fun _ => .bind fun row => ?_
    cases row with
    | none => exact .bind fun _ => hRow _ (by simp [provisioningActions])
    | some row => exact .bind fun _ => .bind fun _ => hRow _ (by simp [provisioningActions])
  | getMe | adminRefresh | stripeEvent | getPendingTransfer =>
    repeat refine Returns.bind fun _ => ?_
    exact .pure (by simp)
  | _ =>
    repeat refine Returns.bind fun _ => ?_
    exact hRow _ (by
      simp [provisioningActions, AuditedRouter.tenantEntry, AuditedRouter.blockEntry])

theorem addedRows_foreign {r : Request} {w : World} :
    ∀ row ∈ addedRows c o r w, row.action ∉ provisioningActions := by
  cases hRun : (auditedTransaction c o r).atomically w with
  | mk outcome m =>
    cases outcome with
    | error => simp [addedRows, hRun]
    | ok x =>
      obtain ⟨hAudited, hRows⟩ := addedRows_of_run hRun
      exact hRows ▸ audited_foreign r _ _ _ hAudited

end Replay

section Journal

variable {cfg : Config} {v : Vault} {days : Nat} {s s' : ProvisionedSys}
  {event : ProvisionedEvent} {steps : List (ProvisionedSys × ProvisionedEvent)}

/-- The rows that a step adds. -/
def provisionedRows (cfg : Config) (v : Vault) (p : ProvisionedSys × ProvisionedEvent) :
    List AuditLog :=
  match p.2 with
  | .audited e => written cfg (p.1.audited, e)
  | .provisioning e => p.1.added (e.ctx cfg) v e.iv e.request

@[simp] theorem provisionedRows_provisioning (e : ProvisioningEvent) :
    provisionedRows cfg v (s, .provisioning e) = s.added (e.ctx cfg) v e.iv e.request := rfl

def provisionedCutoff (days : Nat) (p : ProvisionedSys × ProvisionedEvent) : Nat :=
  match p.2 with
  | .audited e => cutoff days (p.1.audited, e)
  | .provisioning _ => 0

theorem provisionedJournal (cfg : Config) (v : Vault) (days : Nat) :
    Journal (ProvisionedStep cfg v days) (fun s => s.audited.clock) (fun s => s.audited.auditLogs)
      AuditLog.createdAt (provisionedCutoff days) (provisionedRows cfg v) where
  log_step h := by
    cases h with
    | audited step => exact (auditJournal cfg days).log_step step
    | provisioning provisions =>
      rw [provisions.outcome.1]
      simp [provisionedCutoff, provisionedRows, ProvisionedSys.after]
  clock_le h := by
    cases h with
    | audited step => exact (auditJournal cfg days).clock_le step
    | provisioning provisions => exact provisions.outcome.1 ▸ provisions.time.2
  cutoff_le h := by
    cases h with
    | audited step => exact (auditJournal cfg days).cutoff_le step
    | provisioning => exact Nat.zero_le _
  added_stamp h r hr := by
    cases h with
    | audited step => exact (auditJournal cfg days).added_stamp step r hr
    | provisioning provisions =>
      obtain ⟨hAfter, hOutcome⟩ := provisions.outcome
      rcases hOutcome with ⟨_, -, -, hNone⟩ | ⟨_, _, _, _, -, -, -, hRow⟩
      · rw [provisionedRows_provisioning, hNone] at hr
        cases hr
      · rw [provisionedRows_provisioning, hRow, List.mem_singleton] at hr
        subst hr
        rw [hAfter]
        exact ⟨provisions.time.2, Nat.zero_le _, Nat.le_refl _⟩

/-- What a step makes of the settings of a tenant is what its rows say. -/
theorem ProvisionedStep.replay (hText : Function.Injective cfg.lib.uuidText)
    (h : ProvisionedStep cfg v days s event s') (tenantId : Uuid) :
    (s'.settings tenantId).shown = (provisionedRows cfg v (s, event)).foldl
      (ShownSettings.replay (cfg.lib.uuidText tenantId)) (s.settings tenantId).shown := by
  cases h with
  | @audited e _ step =>
    have hForeign : ∀ row ∈ written cfg (s.audited, e), row.action ∉ provisioningActions := by
      cases e with
      | request e o => exact addedRows_foreign
      | purge => simp [written]
    exact (ShownSettings.foldl_replay_foreign hForeign _).symm
  | @provisioning e _ provisions =>
    rcases provisions.outcome.2 with ⟨_, -, hSame, hNone⟩ |
      ⟨admin, tenant, name, details, hSets, -, hSettings, hRow⟩
    · rw [provisionedRows_provisioning, hNone, hSame]
      rfl
    · rw [provisionedRows_provisioning, hRow, hSettings, setSettings, List.foldl_cons,
        List.foldl_nil]
      by_cases hTenant : tenantId = e.request.tenantId
      · subst hTenant
        rw [if_pos rfl, ShownSettings.replay, if_pos ⟨rfl, rfl⟩]
        exact hSets.does.act.symm
      · have hOther : ¬cfg.lib.uuidText e.request.tenantId = cfg.lib.uuidText tenantId :=
          fun hSame => hTenant (hText hSame).symm
        rw [if_neg hTenant, ShownSettings.replay, if_neg]
        exact fun hThis => hOther (Option.some.inj hThis.2)

/-- The audit log says what the settings are.  It holds the rows that were written, less those that a
purge has deleted since, and what is shown of the settings of a tenant is what the rows since then
make of what it was. -/
theorem settings_replayed (hText : Function.Injective cfg.lib.uuidText)
    (hRun : Run (ProvisionedStep cfg v days) s steps s') :
    s'.audited.auditLogs =
      (s.audited.auditLogs ++ steps.flatMap (provisionedRows cfg v)).filter
        (fun row => ∀ p ∈ steps, provisionedCutoff days p ≤ row.createdAt) ∧
    ∀ tenantId, (s'.settings tenantId).shown =
      (steps.flatMap (provisionedRows cfg v)).foldl
        (ShownSettings.replay (cfg.lib.uuidText tenantId)) (s.settings tenantId).shown := by
  refine ⟨(provisionedJournal cfg v days).log_eq hRun, fun tenantId => ?_⟩
  induction hRun with
  | nil => rfl
  | snoc _ hLast ih =>
    rw [hLast.replay hText tenantId, ih, List.flatMap_append, List.foldl_append,
      List.flatMap_singleton]

end Journal

/-! ### Acme is set up -/

def sampleVault : Vault := ⟨sampleFernet, "change-me-in-production"⟩

theorem tenant_lifecycle_setup :
    ((acmeActivated sampleVault).2.settings ⟨5⟩).Proper ∧
      (setup sampleVault).countP (activates ⟨5⟩) =
        (if ((acmeActivated sampleVault).2.settings ⟨5⟩).status = "active" then 1 else 0) ∧
      (¬(acmeActivated sampleVault).2.audited.sys.world.db.HasTenant ⟨5⟩ →
        (acmeActivated sampleVault).2.settings ⟨5⟩ = {}) :=
  tenant_lifecycle setupStart_reachable (fun _ => rfl) (setup_run sampleVault) ⟨5⟩

theorem settings_replayed_setup :
    (acmeActivated sampleVault).2.audited.auditLogs =
      (setupStart.audited.auditLogs ++
        (setup sampleVault).flatMap (provisionedRows sampleConfig sampleVault)).filter
          (fun row => ∀ p ∈ setup sampleVault, provisionedCutoff 365 p ≤ row.createdAt) ∧
    ∀ tenantId, ((acmeActivated sampleVault).2.settings tenantId).shown =
      ((setup sampleVault).flatMap (provisionedRows sampleConfig sampleVault)).foldl
        (ShownSettings.replay (sampleLib.uuidText tenantId)) (setupStart.settings tenantId).shown :=
  settings_replayed uuidText_injective (setup_run sampleVault)

end WxcodeAdm
