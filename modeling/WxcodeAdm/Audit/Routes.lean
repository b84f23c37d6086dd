import WxcodeAdm.Audit.Service
import WxcodeAdm.Router

/-! The requests again, with the rows that they add to the audit log.  A row is added at the end of
a request, in its transaction, by the router or by the service function of a super-admin. -/

namespace WxcodeAdm

open Lib

/-- `request.client.host`, and the `reason` in the body of an action of a super-admin. -/
structure Occasion where
  clientIp : Option String
  reason : String

/-- A response with the rows that its request has added. -/
abbrev AuditedResponse : Type := Response × List AuditLog

variable (c : Ctx) (o : Occasion)

namespace AuditedRouter

def login (email : String) (password : PyStr) (deviceToken userAgent clientIp : Option String) :
    App AuditedResponse := do
  let result ← WxcodeAdm.login c email password deviceToken userAgent clientIp
  let user ← .query fun db => db.userByEmail email
  let written (action : String) : List AuditLog := user.toList.map fun user => writeAudit c
    { action, resourceType := "session", actorId := some user.id, ipAddress := clientIp }
  match result with
  | .mfaRequired .. => return (.login result none, written "login_mfa_pending")
  | .tokens _ =>
    let response ← Router.loginResponse c result user
    return (response, written "login")

def wxcodeExchange (code : String) : App AuditedResponse := do
  let result ← exchangeWxcodeCode c code
  let data ← .orRaise result
    (.app "INVALID_CODE" "Authorization code is invalid or expired" 401)
  return (.wxcodeExchange data, [writeAudit c
    { action := "wxcode_exchange", resourceType := "session", ipAddress := o.clientIp
      details := [("user_id", .str (c.lib.uuidText data.userId))] }])

def oauthCallback (provider email providerUserId : String) (userAgent clientIp : Option String) :
    App AuditedResponse := do
  .ensure (provider ∈ Router.validProviders)
    (.app "OAUTH_UNKNOWN_PROVIDER" ("Unknown OAuth provider: " ++ provider ++
      ". Must be 'google' or 'github'.") 400)
  let result ← resolveOauthAccount c provider email providerUserId userAgent clientIp
  return (.oauth result, [writeAudit c
    { action := "oauth_login", resourceType := "session", ipAddress := clientIp
      details := [("provider", .str provider), ("email", .str email)] }])

def patchMe (token : Bearer) (body : UpdateProfileRequest) : App AuditedResponse := do
  let user ← requireVerified c token
  .ensure (body.displayName.isSome = true ∨ body.email.isSome = true)
    (.app "NO_FIELDS_TO_UPDATE" "No fields to update" 400)
  updateProfile c user body
  return (.done, [writeAudit c
    { action := "profile_update", resourceType := "user", actorId := some user.id
      ipAddress := o.clientIp }])

def changeMemberRole (token : Bearer) (xTenantId : Option String) (userId : Uuid)
    (body : ChangeRoleRequest) : App AuditedResponse := do
  let ctx ← requireRole c .admin token xTenantId
  let updated ← changeRole ctx.1 ctx.2 userId body.role.role body.billingAccess
  let user ← .query fun db => db.user updated.userId
  .ensure (user.isSome = true) (.other "NoResultFound")
  return (.membership updated, [writeAudit c
    { action := "change_role", resourceType := "membership", actorId := some ctx.2.userId
      resourceId := some (c.lib.uuidText userId), tenantId := some ctx.1.id
      ipAddress := o.clientIp, details := [("new_role", .str body.role.role.value)] }])

def createInvitation (token : Bearer) (xTenantId : Option String) (body : InviteRequest) :
    App AuditedResponse := do
  let ctx ← requireRole c .admin token xTenantId
  enforceMemberCap ctx.1.id
  let invitation ← inviteUser c ctx.1 ctx.2 body
  return (.invitation invitation, [writeAudit c
    { action := "invite_user", resourceType := "invitation", actorId := some ctx.2.userId
      resourceId := some (c.lib.uuidText invitation.id), tenantId := some ctx.1.id
      ipAddress := o.clientIp
      details := [("email", .str body.email), ("role", .str body.role.role.value)] }])

def toggleMfaEnforcement (token : Bearer) (xTenantId : Option String) (enforce : Bool) :
    App AuditedResponse := do
  let ctx ← requireRole c .owner token xTenantId
  let found ← .query fun db => db.user ctx.2.userId
  let actor ← .orRaise found (.other "NoResultFound")
  Router.setMfaEnforcement ctx.1 actor enforce
  return (.done, [writeAudit c
    { action := "toggle_mfa_enforcement", resourceType := "tenant", actorId := some ctx.2.userId
      resourceId := some (c.lib.uuidText ctx.1.id), tenantId := some ctx.1.id
      ipAddress := o.clientIp, details := [("enforce", .bool enforce)] }])

def adminLogin (email password : String) (clientIp : Option String) : App AuditedResponse := do
  .ensure (ipAllowed c clientIp)
    (.forbidden "IP_NOT_ALLOWED" "Access denied from this IP address")
  let tokens ← WxcodeAdm.adminLogin c email password
  -- the token names the user who was found
  return (.tokens tokens, [writeAudit c
    { action := "admin_login", resourceType := "user", actorId := some tokens.accessToken.sub
      ipAddress := clientIp }])

def adminLogout (token : Bearer) (refreshToken : String) : App AuditedResponse := do
  discard <| requireAdmin c token
  let payload ← .ofExcept (decodeAdminAccessToken c token)
  let row ← .query fun db => db.refreshToken refreshToken
  match row with
  | some row => .exec fun db => db.deleteRefreshTokens fun r => r.id = row.id
  | none => pure ()
  blacklistJti c payload.jti
  return (.done, [writeAudit c
    { action := "admin_logout", resourceType := "user", actorId := row.map fun row => row.userId }])

/-- What a super-admin does to a tenant or a user, by a service function that writes a row. -/
def asAdmin (token : Bearer) (k : App Unit) (entry : User → AuditFields) : App AuditedResponse := do
  let admin ← requireAdmin c token
  k
  return (.done, [writeAudit c (entry admin)])

/-- The row of an action on a tenant. -/
def tenantEntry (action : String) (tenantId : Uuid) (admin : User) : AuditFields where
  action := action
  resourceType := "tenant"
  actorId := some admin.id
  resourceId := some (c.lib.uuidText tenantId)
  details := [("reason", .str o.reason)]

/-- The row of an action on the membership of a user. -/
def blockEntry (action : String) (userId tenantId : Uuid) (admin : User) : AuditFields where
  action := action
  resourceType := "user"
  actorId := some admin.id
  resourceId := some (c.lib.uuidText userId)
  tenantId := some tenantId
  details := [("reason", .str o.reason), ("tenant_id", .str (c.lib.uuidText tenantId))]

end AuditedRouter

/-- A request, without its transaction, with the rows that it adds. -/
def audited : Request → App AuditedResponse
  | .signup email password => do
    let user ← signup c email password
    return (.user user, [writeAudit c
      { action := "signup", resourceType := "user", ipAddress := o.clientIp
        details := [("email", .str email)] }])
  | .verifyEmail email code => do
    verifyEmail c email code
    return (.done, [writeAudit c
      { action := "verify_email", resourceType := "user", ipAddress := o.clientIp }])
  | .resendVerification email => do
    resendVerification c email
    return (.done, [writeAudit c
      { action := "resend_verification", resourceType := "user", ipAddress := o.clientIp }])
  | .login email password device ua ip => AuditedRouter.login c email password device ua ip
  | .mfaVerify body ua ip => do
    let result ← mfaVerify c body ua ip
    return (.mfaVerify result, [writeAudit c
      { action := "mfa_verify_success", resourceType := "session", ipAddress := ip }])
  | .refresh token ua ip => do
    let tokens ← refresh c token ua ip
    return (.tokens tokens, [writeAudit c
      { action := "refresh_token", resourceType := "session", ipAddress := ip }])
  | .logout refreshToken accessToken => do
    logout c refreshToken accessToken
    return (.done, [writeAudit c
      { action := "logout", resourceType := "session", ipAddress := o.clientIp }])
  | .forgotPassword email => do
    forgotPassword c email
    return (.done, [writeAudit c
      { action := "forgot_password", resourceType := "user", ipAddress := o.clientIp }])
  | .resetPassword token password => do
    resetPassword c token password
    return (.done, [writeAudit c
      { action := "reset_password", resourceType := "user", ipAddress := o.clientIp }])
  | .wxcodeExchange code => AuditedRouter.wxcodeExchange c o code
  | .oauthCallback provider email puid ua ip =>
    AuditedRouter.oauthCallback c provider email puid ua ip
  | .oauthLinkConfirm linkToken password ua ip => do
    let tokens ← confirmOauthLink c linkToken password ua ip
    return (.tokens tokens, [writeAudit c
      { action := "oauth_link", resourceType := "session", ipAddress := ip }])
  | .mfaEnroll token => do
    let user ← requireVerified c token
    let secret ← mfaBeginEnrollment c user
    return (.mfaSecret secret, [writeAudit c
      { action := "mfa_enroll_begin", resourceType := "user", actorId := some user.id
        ipAddress := o.clientIp }])
  | .mfaConfirm token code => do
    let user ← requireVerified c token
    let codes ← mfaConfirmEnrollment c user code
    return (.backupCodes codes, [writeAudit c
      { action := "mfa_enroll_confirm", resourceType := "user", actorId := some user.id
        ipAddress := o.clientIp }])
  | .mfaDisable token code => do
    let user ← requireVerified c token
    mfaDisable c user code
    return (.done, [writeAudit c
      { action := "mfa_disable", resourceType := "user", actorId := some user.id
        ipAddress := o.clientIp }])
  | .getMe token => do
    let user ← requireVerified c token
    return (.user user, [])
  | .patchMe token body => AuditedRouter.patchMe c o token body
  | .changePassword token current new => do
    let user ← requireVerified c token
    let jti ← getCurrentJti c token
    changePassword c user current new (some jti)
    return (.done, [writeAudit c
      { action := "password_change", resourceType := "user", actorId := some user.id
        ipAddress := o.clientIp }])
  | .revokeSession token sessionId => do
    let user ← requireVerified c token
    let jti ← getCurrentJti c token
    revokeSession c user sessionId jti
    return (.done, [writeAudit c
      { action := "session_revoke", resourceType := "session", actorId := some user.id
        ipAddress := o.clientIp, details := [("session_id", .str sessionId)] }])
  | .revokeAllSessions token => do
    let user ← requireVerified c token
    let jti ← getCurrentJti c token
    let count ← revokeAllOtherSessions c user jti
    return (.revokedCount count, [writeAudit c
      { action := "session_revoke_all", resourceType := "session", actorId := some user.id
        ipAddress := o.clientIp, details := [("revoked_count", .int count)] }])
  | .createWorkspace token name => do
    let user ← requireVerified c token
    let created ← createWorkspace c user name
    return (.workspace created.1 created.2, [writeAudit c
      { action := "create_workspace", resourceType := "tenant", actorId := some user.id
        resourceId := some (c.lib.uuidText created.1.id), ipAddress := o.clientIp }])
  | .changeMemberRole token tenant userId body =>
    AuditedRouter.changeMemberRole c o token tenant userId body
  | .removeMember token tenant userId => do
    let ctx ← requireRole c .admin token tenant
    removeMember ctx.1 ctx.2 userId
    return (.done, [writeAudit c
      { action := "remove_member", resourceType := "membership", actorId := some ctx.2.userId
        resourceId := some (c.lib.uuidText userId), tenantId := some ctx.1.id
        ipAddress := o.clientIp }])
  | .leaveTenant token tenant => do
    let ctx ← requireTenantMember c token tenant
    leaveTenant ctx.2 ctx.1.id ctx.2.userId
    return (.done, [writeAudit c
      { action := "leave_tenant", resourceType := "membership", actorId := some ctx.2.userId
        tenantId := some ctx.1.id, ipAddress := o.clientIp }])
  | .initiateTransfer token tenant toUserId => do
    let ctx ← requireRole c .owner token tenant
    let transfer ← initiateTransfer c ctx.1 ctx.2 toUserId
    return (.transfer transfer, [writeAudit c
      { action := "initiate_transfer", resourceType := "ownership_transfer"
        actorId := some ctx.2.userId, resourceId := some (c.lib.uuidText transfer.id)
        tenantId := some ctx.1.id, ipAddress := o.clientIp
        details := [("to_user_id", .str (c.lib.uuidText toUserId))] }])
  | .acceptTransfer token tenant => do
    let ctx ← requireTenantMember c token tenant
    acceptTransfer c ctx.1.id ctx.2.userId
    return (.done, [writeAudit c
      { action := "accept_transfer", resourceType := "ownership_transfer"
        actorId := some ctx.2.userId, tenantId := some ctx.1.id, ipAddress := o.clientIp }])
  | .getPendingTransfer token tenant => do
    let response ← Router.getPendingTransfer c token tenant
    return (response, [])
  | .createInvitation token tenant body => AuditedRouter.createInvitation c o token tenant body
  | .acceptInvitation token invitation => do
    let user ← requireVerified c token
    let membership ← acceptInvitation c user invitation
    return (.membership membership, [writeAudit c
      { action := "accept_invitation", resourceType := "invitation", actorId := some user.id
        tenantId := some membership.tenantId, ipAddress := o.clientIp }])
  | .cancelInvitation token tenant invitationId => do
    let ctx ← requireRole c .admin token tenant
    cancelInvitation ctx.1.id invitationId
    return (.done, [writeAudit c
      { action := "cancel_invitation", resourceType := "invitation", actorId := some ctx.2.userId
        resourceId := some (c.lib.uuidText invitationId), tenantId := some ctx.1.id
        ipAddress := o.clientIp }])
  | .toggleMfaEnforcement token tenant enforce =>
    AuditedRouter.toggleMfaEnforcement c o token tenant enforce
  | .adminLogin email password ip => AuditedRouter.adminLogin c email password ip
  | .adminRefresh token => do
    let tokens ← adminRefresh c token
    return (.tokens tokens, [])
  | .adminLogout token refreshToken => AuditedRouter.adminLogout c token refreshToken
  | .suspendTenant token tenantId => AuditedRouter.asAdmin c token (suspendTenant c tenantId)
    (AuditedRouter.tenantEntry c o "suspend_tenant" tenantId)
  | .reactivateTenant token tenantId => AuditedRouter.asAdmin c token (reactivateTenant tenantId)
    (AuditedRouter.tenantEntry c o "reactivate_tenant" tenantId)
  | .softDeleteTenant token tenantId => AuditedRouter.asAdmin c token (softDeleteTenant tenantId)
    (AuditedRouter.tenantEntry c o "soft_delete_tenant" tenantId)
  | .blockUser token userId tenantId => AuditedRouter.asAdmin c token (blockUser userId tenantId)
    (AuditedRouter.blockEntry c o "block_user" userId tenantId)
  | .unblockUser token userId tenantId => AuditedRouter.asAdmin c token
    (unblockUser userId tenantId) (AuditedRouter.blockEntry c o "unblock_user" userId tenantId)
  | .forcePasswordReset token userId => AuditedRouter.asAdmin c token (forcePasswordReset c userId)
    fun admin => { action := "force_password_reset", resourceType := "user"
                   actorId := some admin.id, resourceId := some (c.lib.uuidText userId)
                   details := [("reason", .str o.reason)] }
  | .createCheckoutSession token tenant planId => do
    let ctx ← requireBillingAccess c token tenant
    let session ← createCheckoutSession c ctx.1.id planId
    return (.checkout session.1 session.2, [writeAudit c
      { action := "create_checkout", resourceType := "subscription", actorId := some ctx.2.userId
        tenantId := some ctx.1.id, ipAddress := o.clientIp
        details := [("plan_id", .str (c.lib.uuidText planId))] }])
  | .stripeEvent eventId eventType dataObject => do
    processStripeEvent c eventId eventType dataObject
    return (.done, [])

/-! ### The audit changes nothing else -/

variable {c o}

theorem AuditedRouter.asAdmin_erase (token : Bearer) (k : App Unit) (entry : User → AuditFields) :
    Prod.fst <$> AuditedRouter.asAdmin c token k entry = (do
      discard <| requireAdmin c token
      k
      return .done) := by
  simp [AuditedRouter.asAdmin, discard, LawfulFunctor.map_const]

theorem AuditedRouter.login_erase (email : String) (password : PyStr)
    (deviceToken userAgent clientIp : Option String) :
    Prod.fst <$> AuditedRouter.login c email password deviceToken userAgent clientIp =
      Router.login c email password deviceToken userAgent clientIp := by
  simp only [AuditedRouter.login, Router.login, map_bind]
  refine bind_congr fun result => bind_congr fun user => ?_
  cases result <;> simp [Router.loginResponse]

theorem AuditedRouter.adminLogout_erase (token : Bearer) (refreshToken : String) :
    Prod.fst <$> AuditedRouter.adminLogout c token refreshToken =
      Router.adminLogout c token refreshToken := by
  simp only [AuditedRouter.adminLogout, Router.adminLogout, WxcodeAdm.adminLogout, deleteIfFound,
    map_bind, bind_assoc]
  refine bind_congr fun _ => bind_congr fun _ => bind_congr fun row => ?_
  cases row <;> simp

/-- A request without its rows is the request as it was modelled without the audit. -/
theorem audited_erase (r : Request) : Prod.fst <$> audited c o r = handle c r := by
  cases r with
  | login => exact AuditedRouter.login_erase _ _ _ _ _
  | adminLogout => exact AuditedRouter.adminLogout_erase _ _
  | suspendTenant | reactivateTenant | softDeleteTenant | blockUser | unblockUser
  | forcePasswordReset => exact AuditedRouter.asAdmin_erase _ _ _
  | _ => simp [audited, handle, AuditedRouter.wxcodeExchange, Router.wxcodeExchange,
      AuditedRouter.oauthCallback, Router.oauthCallback, AuditedRouter.patchMe, Router.patchMe,
      AuditedRouter.changeMemberRole, Router.changeMemberRole, AuditedRouter.createInvitation,
      Router.createInvitation, AuditedRouter.toggleMfaEnforcement, Router.toggleMfaEnforcement,
      AuditedRouter.adminLogin, Router.adminLogin]

section Runs

variable {w w' : World} {r : Request}

theorem audited_ok {x : AuditedResponse} (hRun : (audited c o r).run w = .ok x w') :
    (handle c r).run w = .ok x.1 w' := by
  rw [← audited_erase (o := o), map_eq_pure_bind, Handler.run_bind_ok]
  exact ⟨x, w', hRun, rfl⟩

theorem audited_error {error : PyError} (hRun : (audited c o r).run w = .error error w') :
    (handle c r).run w = .error error w' := by
  rw [← audited_erase (o := o), map_eq_pure_bind, Handler.run_bind, hRun]

theorem audited_of_ok {response : Response} (hRun : (handle c r).run w = .ok response w') :
    ∃ rows, (audited c o r).run w = .ok (response, rows) w' := by
  rw [← audited_erase (o := o), map_eq_pure_bind, Handler.run_bind_ok] at hRun
  obtain ⟨⟨response, rows⟩, m, hRun, hPure⟩ := hRun
  obtain ⟨rfl, rfl⟩ := Handler.run_pure_ok.mp hPure
  exact ⟨rows, hRun⟩

end Runs

end WxcodeAdm
