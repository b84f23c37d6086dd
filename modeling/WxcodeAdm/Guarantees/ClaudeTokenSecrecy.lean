import WxcodeAdm.Guarantees.TenantProvisioning
import WxcodeAdm.Lib.Agrees

/-! The Claude tokens over the runs of the system.  What the system answers, shows and logs is the
same whatever the tokens are, and the column of a tenant decrypts to the token that was set last. -/

namespace WxcodeAdm

open Lib

/-! ### Runs with other tokens -/

/-- The same action, but for the text of a token, which may be another one of as many bytes. -/
inductive ProvisioningAction.Alike : ProvisioningAction → ProvisioningAction → Prop
  | same (action : ProvisioningAction) : Alike action action
  | setClaudeToken {body body' : ClaudeTokenRequest}
      (size : body'.token.utf8ByteSize = body.token.utf8ByteSize)
      (reason : body'.reason = body.reason) :
      Alike (.setClaudeToken body') (.setClaudeToken body)

/-- The same request with the same outcome, at the same time, whatever was drawn to encrypt. -/
structure ProvisioningEvent.Alike (e' e : ProvisioningEvent) : Prop where
  now : e'.now = e.now
  token : e'.request.token = e.request.token
  tenantId : e'.request.tenantId = e.request.tenantId
  action : e'.request.action.Alike e.request.action
  outcome : e'.outcome = e.outcome

theorem ProvisioningEvent.Alike.self (e : ProvisioningEvent) : e.Alike e :=
  ⟨rfl, rfl, rfl, .same _, rfl⟩

/-- An event with another token of as many bytes. -/
def ProvisioningEvent.withToken (e : ProvisioningEvent) (body : ClaudeTokenRequest) :
    ProvisioningEvent :=
  { e with request := { e.request with action := .setClaudeToken body } }

theorem ProvisioningEvent.Alike.withToken {e : ProvisioningEvent} {body body' : ClaudeTokenRequest}
    (hAction : e.request.action = .setClaudeToken body)
    (hSize : body'.token.utf8ByteSize = body.token.utf8ByteSize)
    (hReason : body'.reason = body.reason) : (e.withToken body').Alike e :=
  ⟨rfl, rfl, rfl, hAction ▸ .setClaudeToken hSize hReason, rfl⟩

inductive ProvisionedEvent.Alike : ProvisionedEvent → ProvisionedEvent → Prop
  | audited (e : AuditedEvent) : Alike (.audited e) (.audited e)
  | provisioning {e e' : ProvisioningEvent} (alike : e'.Alike e) :
      Alike (.provisioning e') (.provisioning e)

/-- The same system, but for what the tokens are. -/
structure ProvisionedSys.Alike (s s' : ProvisionedSys) : Prop where
  audited : s.audited = s'.audited
  shown : ∀ id, (s.settings id).shown = (s'.settings id).shown

section Handlers

variable {c : Ctx} {lib : Cryptography} {prim : Fernet.Primitives} {rawKey : String}
  {iv iv' : List UInt8} {tenantId actorId : Uuid} {tenant tenant' : TenantSettings}
  {action action' : ProvisioningAction} {settings settings' : Uuid → TenantSettings}

theorem TenantSettings.shown_eq : tenant.shown = tenant'.shown ↔
    tenant.toTenantSetup = tenant'.toTenantSetup ∧
      tenant.claudeOauthToken.isSome = tenant'.claudeOauthToken.isSome := by
  simp [TenantSettings.shown]

/-- Encryptions of texts of one size are of one length, or there is no key for either. -/
theorem encryptValue_agrees (hFernet : lib.IsFernet prim) (hPrim : prim.Lawful)
    (hIv : iv.length = 16) (hIv' : iv'.length = 16) (now : Nat) {text text' : String}
    (hSize : text'.utf8ByteSize = text.utf8ByteSize) :
    ExceptAgrees (fun stored stored' : String => stored.length = stored'.length)
      (encryptValue lib rawKey now iv text) (encryptValue lib rawKey now iv' text') := by
  cases hKey : getFernet lib rawKey with
  | error error =>
    rw [encryptValue, encryptValue, hKey]
    exact .error
  | ok key =>
    have hEncrypt (iv : List UInt8) (text : String) : encryptValue lib rawKey now iv text =
        .ok (lib.fernetEncrypt key now iv text.toUTF8) := by
      rw [encryptValue, hKey]
      rfl
    rw [hEncrypt, hEncrypt]
    refine .ok ?_
    rw [length_encryptValue hFernet hPrim hIv (hEncrypt iv text),
      length_encryptValue hFernet hPrim hIv' (hEncrypt iv' text'), hSize]

/-- Texts of one length both fit a column, or neither does. -/
theorem fitColumn_agrees {width : Nat} {text text' : String} (h : text.length = text'.length) :
    ExceptAgrees (fun _ _ => True) (fitColumn width text) (fitColumn width text') := by
  unfold fitColumn
  rw [h]
  split
  · exact .ok trivial
  · exact .error

theorem setClaudeToken_agrees (hFernet : lib.IsFernet prim) (hPrim : prim.Lawful)
    (hIv : iv.length = 16) (hIv' : iv'.length = 16) {token token' reason reason' : String}
    (hSize : token'.utf8ByteSize = token.utf8ByteSize) (hReason : reason' = reason)
    (hSetup : tenant.toTenantSetup = tenant'.toTenantSetup) :
    ExceptAgrees (fun x y => x.1.shown = y.1.shown ∧ x.2 = y.2)
      (Provisioning.setClaudeToken c lib rawKey iv tenantId token reason actorId tenant)
      (Provisioning.setClaudeToken c lib rawKey iv' tenantId token' reason' actorId tenant') := by
  subst hReason
  refine (encryptValue_agrees hFernet hPrim hIv hIv' c.now hSize).bind fun _ _ hLength => ?_
  refine (fitColumn_agrees hLength).bind fun _ _ _ => ?_
  exact .ok ⟨TenantSettings.shown_eq.mpr ⟨hSetup, rfl⟩, rfl⟩

theorem service_agrees (hFernet : lib.IsFernet prim) (hPrim : prim.Lawful)
    (hIv : iv.length = 16) (hIv' : iv'.length = 16) (hAction : action'.Alike action)
    (hShown : tenant.shown = tenant'.shown) :
    ExceptAgrees (fun x y => x.1.shown = y.1.shown ∧ x.2 = y.2)
      (action.service c lib rawKey iv tenantId actorId tenant)
      (action'.service c lib rawKey iv' tenantId actorId tenant') := by
  obtain ⟨hSetup, hToken⟩ := TenantSettings.shown_eq.mp hShown
  cases hAction with
  | setClaudeToken size reason =>
    exact setClaudeToken_agrees hFernet hPrim hIv hIv' size reason hSetup
  | same =>
    obtain ⟨setup, token⟩ := tenant
    obtain ⟨setup', token'⟩ := tenant'
    obtain rfl : setup = setup' := hSetup
    cases action with
    | setClaudeToken body => exact setClaudeToken_agrees hFernet hPrim hIv hIv' rfl rfl rfl
    | revokeClaudeToken body =>
      cases token with
      | none =>
        obtain rfl : token' = none := by simpa using hToken.symm
        exact .error
      | some =>
        obtain ⟨text, rfl⟩ := Option.isSome_iff_exists.mp hToken.symm
        exact .ok ⟨rfl, rfl⟩
    | updateClaudeConfig body =>
      refine .bind_eq fun _ => .bind_eq fun _ => ?_
      exact .ok ⟨TenantSettings.shown_eq.mpr ⟨rfl, hToken⟩, rfl⟩
    | updateWxcodeConfig body => exact .ok ⟨TenantSettings.shown_eq.mpr ⟨rfl, hToken⟩, rfl⟩
    | activateTenant body =>
      simp only [ProvisioningAction.service, Provisioning.activateTenant]
      split
      · exact .error
      · split
        · exact .error
        · exact .ok ⟨TenantSettings.shown_eq.mpr ⟨rfl, hToken⟩, rfl⟩

theorem ProvisioningAction.Alike.message (h : action'.Alike action) :
    action'.message = action.message := by
  cases h <;> rfl

/-- What two requests commit is the same, but for what the tokens are. -/
structure Provisioned.Alike (x y : Provisioned) : Prop where
  response : x.response = y.response
  row : x.row = y.row
  shown : ∀ id, (x.settings id).shown = (y.settings id).shown

theorem provision_agrees {r r' : ProvisioningRequest} (hFernet : lib.IsFernet prim)
    (hPrim : prim.Lawful) (hIv : iv.length = 16) (hIv' : iv'.length = 16)
    (hToken : r'.token = r.token) (hTenant : r'.tenantId = r.tenantId)
    (hAction : r'.action.Alike r.action)
    (hShown : ∀ id, (settings id).shown = (settings' id).shown) :
    Handler.Agrees Provisioned.Alike (provision c lib rawKey iv r settings)
      (provision c lib rawKey iv' r' settings') := by
  unfold provision
  rw [hToken, hTenant, hAction.message]
  refine .bind_eq fun admin => .bind_eq fun _ => .bind_eq fun _ => ?_
  refine .bind (.ofExcept (service_agrees hFernet hPrim hIv hIv' hAction (hShown _)))
    fun x y hAgrees => ?_
  obtain ⟨tenant, entry⟩ := x
  obtain ⟨tenant', entry'⟩ := y
  obtain ⟨hSettings, hEntry⟩ := hAgrees
  refine .pure ⟨rfl, congrArg (writeAudit c) hEntry, fun id => ?_⟩
  simp only [setSettings]
  split
  · exact hSettings
  · exact hShown id

theorem transaction_agrees {r r' : ProvisioningRequest} {v : Vault}
    (hFernet : v.lib.IsFernet prim) (hPrim : prim.Lawful) (hIv : iv.length = 16)
    (hIv' : iv'.length = 16) (hToken : r'.token = r.token) (hTenant : r'.tenantId = r.tenantId)
    (hAction : r'.action.Alike r.action)
    (hShown : ∀ id, (settings id).shown = (settings' id).shown) :
    Handler.Agrees Provisioned.Alike (provisioningTransaction c v iv r settings)
      (provisioningTransaction c v iv' r' settings') := by
  refine .bind (provision_agrees hFernet hPrim hIv hIv' hToken hTenant hAction hShown)
    fun x y hAgrees => .bind_eq fun _ => ?_
  rw [hAgrees.row]
  exact .bind_eq fun _ => .pure hAgrees

end Handlers

section Runs

variable {cfg : Config} {v : Vault} {prim : Fernet.Primitives} {days : Nat}
  {s s' t : ProvisionedSys} {event event' : ProvisionedEvent}
  {steps : List (ProvisionedSys × ProvisionedEvent)}

theorem serve_alike {c : Ctx} {iv iv' : List UInt8} {r r' : ProvisioningRequest}
    (hFernet : v.lib.IsFernet prim) (hPrim : prim.Lawful) (hIv : iv.length = 16)
    (hIv' : iv'.length = 16) (hToken : r'.token = r.token) (hTenant : r'.tenantId = r.tenantId)
    (hAction : r'.action.Alike r.action) (hAlike : s.Alike t) :
    (s.serve c v iv r).1 = (t.serve c v iv' r').1 ∧
      (s.serve c v iv r).2.Alike (t.serve c v iv' r').2 := by
  obtain ⟨hAnswer, hWorld⟩ := (transaction_agrees (c := c) hFernet hPrim hIv hIv' hToken hTenant
    hAction hAlike.shown).atomically s.audited.sys.world
  unfold ProvisionedSys.serve
  rw [← hAlike.audited]
  generalize (provisioningTransaction c v iv r s.settings).atomically s.audited.sys.world = x,
    (provisioningTransaction c v iv' r' t.settings).atomically s.audited.sys.world = y
    at hAnswer hWorld
  obtain ⟨answer, w⟩ := x
  obtain ⟨answer', w'⟩ := y
  obtain rfl : w = w' := hWorld
  cases hAnswer with
  | ok hProvisioned =>
    refine ⟨congrArg Except.ok hProvisioned.response, ?_, hProvisioned.shown⟩
    simp [ProvisionedSys.after, hAlike.audited, hProvisioned.row]
  | error =>
    refine ⟨rfl, ?_, hAlike.shown⟩
    simp [ProvisionedSys.after, hAlike.audited]

/-- A step with other tokens is answered alike. -/
theorem ProvisionedStep.alike (hFernet : v.lib.IsFernet prim) (hPrim : prim.Lawful)
    (h : ProvisionedStep cfg v days s event s') (hAlike : s.Alike t)
    (hEvent : event'.Alike event) :
    ∃ t', ProvisionedStep cfg v days t event' t' ∧ s'.Alike t' := by
  cases hEvent with
  | audited e =>
    cases h with
    | @audited _ m step =>
      exact ⟨{ t with audited := m }, .audited (hAlike.audited ▸ step), rfl, hAlike.shown⟩
  | @provisioning e e' alike =>
    cases h with
    | provisioning provisions =>
      have hCtx : e'.ctx cfg = e.ctx cfg := by
        rw [ProvisioningEvent.ctx, ProvisioningEvent.ctx, alike.now]
      obtain ⟨hOutcome, hAfter⟩ := serve_alike (c := e.ctx cfg) hFernet hPrim e.ivLength
        e'.ivLength alike.token alike.tenantId alike.action hAlike
      rw [provisions.served] at hOutcome hAfter
      refine ⟨_, .provisioning ⟨?_, ?_, ?_⟩, hAfter⟩
      · rw [← hAlike.audited, alike.now]
        exact provisions.time
      · rw [← hAlike.audited, alike.token]
        exact provisions.presented
      · rw [hCtx, alike.outcome]
        exact Prod.ext hOutcome.symm rfl

theorem getTenantDetail_shown {settings settings' : Uuid → TenantSettings}
    (hShown : ∀ id, (settings id).shown = (settings' id).shown) (c : Ctx) (token : Bearer)
    (tenantId : Uuid) :
    getTenantDetail c settings token tenantId = getTenantDetail c settings' token tenantId := by
  simp only [getTenantDetail, hShown]

theorem getWxcodeConfig_shown {settings settings' : Uuid → TenantSettings}
    (hShown : ∀ id, (settings id).shown = (settings' id).shown) (c : Ctx) (token : Bearer)
    (xTenantId : Option String) (tenantId : Uuid) :
    getWxcodeConfig c settings token xTenantId tenantId =
      getWxcodeConfig c settings' token xTenantId tenantId := by
  have hSetup (id : Uuid) : (settings id).toTenantSetup = (settings' id).toTenantSetup :=
    (TenantSettings.shown_eq.mp (hShown id)).1
  simp only [getWxcodeConfig, hSetup]

/-- Nothing of a Claude token comes out, but for its size.  Whatever other tokens of the same sizes
are set in a run, the system can go through the same run with them: all requests are answered as
before, the audit log is the same, and both views show the same. -/
theorem claude_token_hidden (hFernet : v.lib.IsFernet prim) (hPrim : prim.Lawful)
    (hRun : Run (ProvisionedStep cfg v days) s steps s') (hAlike : s.Alike t)
    {events : List ProvisionedEvent}
    (hEvents : List.Forall₂ ProvisionedEvent.Alike events (steps.map fun p => p.2)) :
    ∃ steps' t', Run (ProvisionedStep cfg v days) t steps' t' ∧
      steps'.map (fun p => p.2) = events ∧ s'.audited = t'.audited ∧
      (∀ c token tenantId, getTenantDetail c s'.settings token tenantId =
        getTenantDetail c t'.settings token tenantId) ∧
      ∀ c token xTenantId tenantId, getWxcodeConfig c s'.settings token xTenantId tenantId =
        getWxcodeConfig c t'.settings token xTenantId tenantId := by
  obtain ⟨steps', t', hFollows, hLabels, hEnd⟩ := hRun.follows
    (fun hStep hAlike hEvent => hStep.alike hFernet hPrim hAlike hEvent) hAlike hEvents
  exact ⟨steps', t', hFollows, hLabels, hEnd.audited, getTenantDetail_shown hEnd.shown,
    getWxcodeConfig_shown hEnd.shown⟩

end Runs

/-! ### The token that is there -/

/-- What the column holds after an action on the token: a text that decrypts to the token that was
set, or nothing. -/
def ProvisioningAction.Leaves (v : Vault) : ProvisioningAction → Option String → Prop
  | setClaudeToken body, column =>
    ∃ stored, column = some stored ∧ decryptValue v.lib v.rawKey stored = .ok body.token
  | revokeClaudeToken _, column => column = none
  | _, _ => False

/-- A committed request that sets or revokes the token of the tenant. -/
def ChangesToken (tenantId : Uuid) (p : ProvisionedSys × ProvisionedEvent)
    (action : ProvisioningAction) : Prop :=
  ∃ e response, p.2 = .provisioning e ∧ e.request.tenantId = tenantId ∧
    e.outcome = .ok response ∧ e.request.action = action ∧
    ((∃ body, action = .setClaudeToken body) ∨ ∃ body, action = .revokeClaudeToken body)

section Recovery

variable {cfg : Config} {v : Vault} {days : Nat} {s s' : ProvisionedSys}
  {event : ProvisionedEvent} {steps : List (ProvisionedSys × ProvisionedEvent)}

theorem ProvisioningAction.Does.claudeToken {c : Ctx} {iv : List UInt8} {name : String}
    {tenant tenant' : TenantSettings} {details : List (String × Json)}
    {action : ProvisioningAction} (hLib : v.lib.Lawful)
    (h : action.Does c v.lib v.rawKey iv tenant tenant' name details) :
    (tenant'.claudeOauthToken = tenant.claudeOauthToken ∧
      ¬((∃ body, action = .setClaudeToken body) ∨ ∃ body, action = .revokeClaudeToken body)) ∨
    (action.Leaves v tenant'.claudeOauthToken ∧
      ((∃ body, action = .setClaudeToken body) ∨ ∃ body, action = .revokeClaudeToken body)) := by
  cases h with
  | @setClaudeToken body stored encrypted =>
    refine .inr ⟨⟨stored, rfl, ?_⟩, .inl ⟨body, rfl⟩⟩
    cases hKey : getFernet v.lib v.rawKey with
    | error error =>
      rw [encryptValue, hKey] at encrypted
      cases encrypted
    | ok key =>
      obtain ⟨token, hToken, hDecrypt⟩ := decrypt_encrypt hLib hKey c.now iv body.token
      obtain rfl := Except.ok.inj (hToken.symm.trans encrypted)
      exact hDecrypt
  | @revokeClaudeToken body => exact .inr ⟨rfl, .inr ⟨body, rfl⟩⟩
  | updateClaudeConfig | updateWxcodeConfig | activateTenant => exact .inl ⟨rfl, by simp⟩

/-- A step leaves the column of a tenant, or is an action on it. -/
theorem ProvisionedStep.claudeToken (hLib : v.lib.Lawful)
    (h : ProvisionedStep cfg v days s event s') (tenantId : Uuid) :
    ((∀ action, ¬ChangesToken tenantId (s, event) action) ∧
      (s'.settings tenantId).claudeOauthToken = (s.settings tenantId).claudeOauthToken) ∨
    ∃ action, ChangesToken tenantId (s, event) action ∧
      action.Leaves v (s'.settings tenantId).claudeOauthToken := by
  rcases h.settings tenantId with ⟨hSame, hRefused⟩ |
    ⟨e, admin, name, details, rfl, rfl, hSets, response, hOutcome⟩
  · refine .inl ⟨?_, by rw [hSame]⟩
    rintro action ⟨e, response, hEvent, hTenant, hOutcome, -⟩
    obtain ⟨error, hError⟩ := hRefused e hEvent hTenant
    rw [hError] at hOutcome
    cases hOutcome
  · rcases hSets.does.claudeToken hLib with ⟨hSame, hNot⟩ | ⟨hLeaves, hChanges⟩
    · refine .inl ⟨?_, hSame⟩
      rintro action ⟨e', -, hEvent, -, -, rfl, hChanges⟩
      obtain rfl := ProvisionedEvent.provisioning.inj hEvent
      exact hNot hChanges
    · exact .inr ⟨_, ⟨e, response, rfl, rfl, hOutcome, rfl, hChanges⟩, hLeaves⟩

/-- What the column of a tenant holds after a run is what it held, if no request of the run has set
or revoked the token, and else what the last one to do so has left: a text that decrypts to the
token that was set, or nothing. -/
theorem claude_token_recovered (hLib : v.lib.Lawful)
    (hRun : Run (ProvisionedStep cfg v days) s steps s') (tenantId : Uuid) :
    ((∀ p ∈ steps, ∀ action, ¬ChangesToken tenantId p action) ∧
      (s'.settings tenantId).claudeOauthToken = (s.settings tenantId).claudeOauthToken) ∨
    ∃ pre p post action, steps = pre ++ p :: post ∧ ChangesToken tenantId p action ∧
      action.Leaves v (s'.settings tenantId).claudeOauthToken ∧
      ∀ q ∈ post, ∀ later, ¬ChangesToken tenantId q later :=
  hRun.last_write (f := fun s => (s.settings tenantId).claudeOauthToken)
    fun _ hStep => hStep.claudeToken hLib tenantId

end Recovery

/-! ### Another token for Acme -/

def acmeOther (v : Vault) : ProvisioningEvent :=
  (acmeConnected v).1.withToken (claudeRequest "sk-ant-2" (by decide))

theorem claude_token_hidden_setup :
    ∃ steps t', Run (ProvisionedStep sampleConfig sampleVault 365) setupStart steps t' ∧
      steps.map (fun p => p.2) = [.provisioning (acmeNamed sampleVault).1,
        .provisioning (acmeOther sampleVault), .provisioning (acmeActivated sampleVault).1] ∧
      (acmeActivated sampleVault).2.audited = t'.audited ∧
      (∀ c token tenantId,
        getTenantDetail c (acmeActivated sampleVault).2.settings token tenantId =
          getTenantDetail c t'.settings token tenantId) ∧
      ∀ c token xTenantId tenantId,
        getWxcodeConfig c (acmeActivated sampleVault).2.settings token xTenantId tenantId =
          getWxcodeConfig c t'.settings token xTenantId tenantId := by
  have hAction : (acmeConnected sampleVault).1.request.action =
      .setClaudeToken (claudeRequest "sk-ant-1" (by decide)) := rfl
  have hOther : (acmeOther sampleVault).Alike (acmeConnected sampleVault).1 :=
    .withToken hAction (by decide) rfl
  exact claude_token_hidden sampleFernet_isFernet samplePrimitives_lawful (setup_run sampleVault)
    ⟨rfl, fun _ => rfl⟩
    (.cons (.provisioning (.self _)) <| .cons (.provisioning hOther) <|
      .cons (.provisioning (.self _)) .nil)

def lawfulVault : Vault := ⟨sampleCryptography, "change-me-in-production"⟩

theorem claude_token_recovered_setup :
    ((∀ p ∈ setup lawfulVault, ∀ action, ¬ChangesToken ⟨5⟩ p action) ∧
      ((acmeActivated lawfulVault).2.settings ⟨5⟩).claudeOauthToken =
        (setupStart.settings ⟨5⟩).claudeOauthToken) ∨
    ∃ pre p post action, setup lawfulVault = pre ++ p :: post ∧ ChangesToken ⟨5⟩ p action ∧
      action.Leaves lawfulVault
        ((acmeActivated lawfulVault).2.settings ⟨5⟩).claudeOauthToken ∧
      ∀ q ∈ post, ∀ later, ¬ChangesToken ⟨5⟩ q later :=
  claude_token_recovered sampleCryptography_lawful (setup_run lawfulVault) ⟨5⟩

end WxcodeAdm
