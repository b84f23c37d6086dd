import WxcodeAdm.Admin.Service
import WxcodeAdm.Auth.Oauth
import WxcodeAdm.Users.Service

/-! The requests that the routers accept, and the jobs of the worker, each with its guards and the
service functions that it calls.  `handle` is one of them without its transaction. -/

namespace WxcodeAdm

open Lib

/-- A request to the backend, or a job of its worker, with the data that it reads. -/
inductive Request where
  | signup (email password : String)
  | verifyEmail (email code : String)
  | resendVerification (email : String)
  | login (email : String) (password : PyStr) (deviceToken userAgent clientIp : Option String)
  | mfaVerify (body : MfaVerifyRequest) (userAgent clientIp : Option String)
  | refresh (refreshToken : String) (userAgent clientIp : Option String)
  | logout (refreshToken : String) (accessToken : Option Bearer)
  | forgotPassword (email : String)
  | resetPassword (token : TimedToken Json) (newPassword : String)
  | wxcodeExchange (code : String)
  | oauthCallback (provider email providerUserId : String) (userAgent clientIp : Option String)
  | oauthLinkConfirm (linkToken password : PyStr) (userAgent clientIp : Option String)
  | mfaEnroll (token : Bearer)
  | mfaConfirm (token : Bearer) (code : String)
  | mfaDisable (token : Bearer) (code : String)
  | getMe (token : Bearer)
  | patchMe (token : Bearer) (body : UpdateProfileRequest)
  | changePassword (token : Bearer) (currentPassword newPassword : String)
  | revokeSession (token : Bearer) (sessionId : String)
  | revokeAllSessions (token : Bearer)
  | createWorkspace (token : Bearer) (name : PyStr)
  | changeMemberRole (token : Bearer) (xTenantId : Option String) (userId : Uuid)
      (body : ChangeRoleRequest)
  | removeMember (token : Bearer) (xTenantId : Option String) (userId : Uuid)
  | leaveTenant (token : Bearer) (xTenantId : Option String)
  | initiateTransfer (token : Bearer) (xTenantId : Option String) (toUserId : Uuid)
  | acceptTransfer (token : Bearer) (xTenantId : Option String)
  | getPendingTransfer (token : Bearer) (xTenantId : Option String)
  | createInvitation (token : Bearer) (xTenantId : Option String) (body : InviteRequest)
  | acceptInvitation (token : Bearer) (invitation : TimedToken InvitationPayload)
  | cancelInvitation (token : Bearer) (xTenantId : Option String) (invitationId : Uuid)
  | toggleMfaEnforcement (token : Bearer) (xTenantId : Option String) (enforce : Bool)
  | adminLogin (email password : String) (clientIp : Option String)
  | adminRefresh (refreshToken : String)
  | adminLogout (token : Bearer) (refreshToken : String)
  | suspendTenant (token : Bearer) (tenantId : Uuid)
  | reactivateTenant (token : Bearer) (tenantId : Uuid)
  | softDeleteTenant (token : Bearer) (tenantId : Uuid)
  | blockUser (token : Bearer) (userId tenantId : Uuid)
  | unblockUser (token : Bearer) (userId tenantId : Uuid)
  | forcePasswordReset (token : Bearer) (userId : Uuid)
  | createCheckoutSession (token : Bearer) (xTenantId : Option String) (planId : Uuid)
  | stripeEvent (eventId eventType : String) (dataObject : Json)

/-- What a request returns. -/
inductive Response where
  | done
  | login (result : LoginResult) (redirect : Option (String × String))
  | mfaVerify (result : MfaVerifyResult)
  | tokens (tokens : TokenResponse)
  | oauth (result : OAuthResult)
  | wxcodeExchange (data : WxcodeCode Payload)
  | mfaSecret (secret : String)
  | backupCodes (codes : List String)
  | user (user : User)
  | revokedCount (count : Nat)
  | workspace (tenant : Tenant) (membership : TenantMembership)
  | membership (membership : TenantMembership)
  | transfer (transfer : OwnershipTransfer)
  | invitation (invitation : Invitation)
  | checkout (checkoutUrl sessionId : String)

/-- The pair of tokens that a response has issued; the exchange of a code hands on a pair that was
issued before. -/
def Response.issued : Response → Option TokenResponse
  | .login result _ => result.issued
  | .mfaVerify result => some result.tokens
  | .tokens pair => some pair
  | .oauth result => result.issued
  | _ => none

variable (c : Ctx)

namespace Router

/-- The response of a login, with the redirect where tokens were issued. -/
def loginResponse (result : LoginResult) (user : Option User) : App Response := do
  match result, user with
  | .tokens pair, some user =>
    let redirect ← redirectToWxcode c user pair
    return .login (.tokens pair) redirect
  | result, _ => return .login result none

def login (email : String) (password : PyStr) (deviceToken userAgent clientIp : Option String) :
    App Response := do
  let result ← WxcodeAdm.login c email password deviceToken userAgent clientIp
  let user ← .query fun db => db.userByEmail email
  loginResponse c result user

def wxcodeExchange (code : String) : App Response := do
  let result ← exchangeWxcodeCode c code
  let data ← .orRaise result
    (.app "INVALID_CODE" "Authorization code is invalid or expired" 401)
  return .wxcodeExchange data

def validProviders : List String := ["google", "github"]

def oauthCallback (provider email providerUserId : String) (userAgent clientIp : Option String) :
    App Response := do
  .ensure (provider ∈ validProviders)
    (.app "OAUTH_UNKNOWN_PROVIDER" ("Unknown OAuth provider: " ++ provider ++
      ". Must be 'google' or 'github'.") 400)
  let result ← resolveOauthAccount c provider email providerUserId userAgent clientIp
  return .oauth result

def patchMe (token : Bearer) (body : UpdateProfileRequest) : App Response := do
  let user ← requireVerified c token
  .ensure (body.displayName.isSome = true ∨ body.email.isSome = true)
    (.app "NO_FIELDS_TO_UPDATE" "No fields to update" 400)
  updateProfile c user body
  return .done

def changeMemberRole (token : Bearer) (xTenantId : Option String) (userId : Uuid)
    (body : ChangeRoleRequest) : App Response := do
  let ctx ← requireRole c .admin token xTenantId
  let updated ← changeRole ctx.1 ctx.2 userId body.role.role body.billingAccess
  let user ← .query fun db => db.user updated.userId
  .ensure (user.isSome = true) (.other "NoResultFound")
  return .membership updated

def getPendingTransfer (token : Bearer) (xTenantId : Option String) : App Response := do
  let ctx ← requireRole c .owner token xTenantId
  let found ← WxcodeAdm.getPendingTransfer c ctx.1.id
  let transfer ← .orRaise found
    (.notFound "TRANSFER_NOT_FOUND" "No pending ownership transfer for this tenant")
  return .transfer transfer

def createInvitation (token : Bearer) (xTenantId : Option String) (body : InviteRequest) :
    App Response := do
  let ctx ← requireRole c .admin token xTenantId
  enforceMemberCap ctx.1.id
  let invitation ← inviteUser c ctx.1 ctx.2 body
  return .invitation invitation

def setMfaEnforcement (tenant : Tenant) (actor : User) (enforce : Bool) : App Unit :=
  if enforce then enableMfaEnforcement tenant actor else disableMfaEnforcement tenant

def toggleMfaEnforcement (token : Bearer) (xTenantId : Option String) (enforce : Bool) :
    App Response := do
  let ctx ← requireRole c .owner token xTenantId
  let found ← .query fun db => db.user ctx.2.userId
  let actor ← .orRaise found (.other "NoResultFound")
  setMfaEnforcement ctx.1 actor enforce
  return .done

def adminLogin (email password : String) (clientIp : Option String) : App Response := do
  .ensure (ipAllowed c clientIp)
    (.forbidden "IP_NOT_ALLOWED" "Access denied from this IP address")
  let tokens ← WxcodeAdm.adminLogin c email password
  return .tokens tokens

def adminLogout (token : Bearer) (refreshToken : String) : App Response := do
  discard <| requireAdmin c token
  let payload ← .ofExcept (decodeAdminAccessToken c token)
  WxcodeAdm.adminLogout c refreshToken payload.jti
  return .done

end Router

def handle : Request → App Response
  | .signup email password => do
    let user ← signup c email password
    return .user user
  | .verifyEmail email code => do
    verifyEmail c email code
    return .done
  | .resendVerification email => do
    resendVerification c email
    return .done
  | .login email password device ua ip => Router.login c email password device ua ip
  | .mfaVerify body ua ip => do
    let result ← mfaVerify c body ua ip
    return .mfaVerify result
  | .refresh token ua ip => do
    let tokens ← refresh c token ua ip
    return .tokens tokens
  | .logout refreshToken accessToken => do
    logout c refreshToken accessToken
    return .done
  | .forgotPassword email => do
    forgotPassword c email
    return .done
  | .resetPassword token password => do
    resetPassword c token password
    return .done
  | .wxcodeExchange code => Router.wxcodeExchange c code
  | .oauthCallback provider email puid ua ip => Router.oauthCallback c provider email puid ua ip
  | .oauthLinkConfirm linkToken password ua ip => do
    let tokens ← confirmOauthLink c linkToken password ua ip
    return .tokens tokens
  | .mfaEnroll token => do
    let user ← requireVerified c token
    let secret ← mfaBeginEnrollment c user
    return .mfaSecret secret
  | .mfaConfirm token code => do
    let user ← requireVerified c token
    let codes ← mfaConfirmEnrollment c user code
    return .backupCodes codes
  | .mfaDisable token code => do
    let user ← requireVerified c token
    mfaDisable c user code
    return .done
  | .getMe token => do
    let user ← requireVerified c token
    return .user user
  | .patchMe token body => Router.patchMe c token body
  | .changePassword token current new => do
    let user ← requireVerified c token
    let jti ← getCurrentJti c token
    changePassword c user current new (some jti)
    return .done
  | .revokeSession token sessionId => do
    let user ← requireVerified c token
    let jti ← getCurrentJti c token
    revokeSession c user sessionId jti
    return .done
  | .revokeAllSessions token => do
    let user ← requireVerified c token
    let jti ← getCurrentJti c token
    let count ← revokeAllOtherSessions c user jti
    return .revokedCount count
  | .createWorkspace token name => do
    let user ← requireVerified c token
    let created ← createWorkspace c user name
    return .workspace created.1 created.2
  | .changeMemberRole token tenant userId body => Router.changeMemberRole c token tenant userId body
  | .removeMember token tenant userId => do
    let ctx ← requireRole c .admin token tenant
    removeMember ctx.1 ctx.2 userId
    return .done
  | .leaveTenant token tenant => do
    let ctx ← requireTenantMember c token tenant
    leaveTenant ctx.2 ctx.1.id ctx.2.userId
    return .done
  | .initiateTransfer token tenant toUserId => do
    let ctx ← requireRole c .owner token tenant
    let transfer ← initiateTransfer c ctx.1 ctx.2 toUserId
    return .transfer transfer
  | .acceptTransfer token tenant => do
    let ctx ← requireTenantMember c token tenant
    acceptTransfer c ctx.1.id ctx.2.userId
    return .done
  | .getPendingTransfer token tenant => Router.getPendingTransfer c token tenant
  | .createInvitation token tenant body => Router.createInvitation c token tenant body
  | .acceptInvitation token invitation => do
    let user ← requireVerified c token
    let membership ← acceptInvitation c user invitation
    return .membership membership
  | .cancelInvitation token tenant invitationId => do
    let ctx ← requireRole c .admin token tenant
    cancelInvitation ctx.1.id invitationId
    return .done
  | .toggleMfaEnforcement token tenant enforce => Router.toggleMfaEnforcement c token tenant enforce
  | .adminLogin email password ip => Router.adminLogin c email password ip
  | .adminRefresh token => do
    let tokens ← adminRefresh c token
    return .tokens tokens
  | .adminLogout token refreshToken => Router.adminLogout c token refreshToken
  | .suspendTenant token tenantId => do
    discard <| requireAdmin c token
    suspendTenant c tenantId
    return .done
  | .reactivateTenant token tenantId => do
    discard <| requireAdmin c token
    reactivateTenant tenantId
    return .done
  | .softDeleteTenant token tenantId => do
    discard <| requireAdmin c token
    softDeleteTenant tenantId
    return .done
  | .blockUser token userId tenantId => do
    discard <| requireAdmin c token
    blockUser userId tenantId
    return .done
  | .unblockUser token userId tenantId => do
    discard <| requireAdmin c token
    unblockUser userId tenantId
    return .done
  | .forcePasswordReset token userId => do
    discard <| requireAdmin c token
    forcePasswordReset c userId
    return .done
  | .createCheckoutSession token tenant planId => do
    let ctx ← requireBillingAccess c token tenant
    let session ← createCheckoutSession c ctx.1.id planId
    return .checkout session.1 session.2
  | .stripeEvent eventId eventType dataObject => do
    processStripeEvent c eventId eventType dataObject
    return .done

/-! ### What a request may do -/

def Request.bearers : Request → List Bearer
  | .logout _ (some token) => [token]
  | .mfaEnroll token | .mfaConfirm token _ | .mfaDisable token _ | .getMe token
  | .patchMe token _ | .changePassword token _ _ | .revokeSession token _
  | .revokeAllSessions token | .createWorkspace token _ | .changeMemberRole token _ _ _
  | .removeMember token _ _ | .leaveTenant token _ | .initiateTransfer token _ _
  | .acceptTransfer token _ | .getPendingTransfer token _ | .createInvitation token _ _
  | .acceptInvitation token _ | .cancelInvitation token _ _ | .toggleMfaEnforcement token _ _
  | .adminLogout token _ | .suspendTenant token _ | .reactivateTenant token _ | .softDeleteTenant token _
  | .blockUser token _ _ | .unblockUser token _ _ | .forcePasswordReset token _
  | .createCheckoutSession token _ _ => [token]
  | _ => []

/-- The requests that can issue tokens. -/
def Request.issues : Request → Bool
  | .login .. | .mfaVerify .. | .refresh .. | .oauthCallback .. | .oauthLinkConfirm ..
  | .adminLogin .. | .adminRefresh .. => true
  | _ => false

/-- The two requests whose tokens are for the admin audience. -/
def Request.audience : Request → String
  | .adminLogin .. | .adminRefresh .. => "wxcode-adm-admin"
  | _ => "wxcode-adm"

/-- The requests that can change the members, transfers or invitations of a tenant. -/
def Request.changesTenancy : Request → Bool
  | .verifyEmail .. | .createWorkspace .. | .changeMemberRole .. | .removeMember ..
  | .leaveTenant .. | .initiateTransfer .. | .acceptTransfer .. | .getPendingTransfer ..
  | .createInvitation .. | .acceptInvitation .. | .cancelInvitation .. | .blockUser ..
  | .unblockUser .. => true
  | _ => false

def Request.checksTotp : Request → Bool
  | .mfaVerify .. => true
  | _ => false

def Request.powers (r : Request) : Power → Prop
  | .issue => r.issues
  | .tenancy => r.changesTenancy
  | .totp => r.checksTotp

variable {c}

theorem loginResponse_evolves {P : Power → Prop} (result : LoginResult) (user : Option User) :
    Handler.Within (Evolves c P) (Router.loginResponse c result user) := by
  unfold Router.loginResponse
  split
  · exact .bind (redirectToWxcode_evolves _ _) fun _ => .pure _
  · exact .pure _

theorem logout_evolves {P : Power → Prop} (refreshToken : String) {accessToken : Option Bearer}
    (hAud : ∀ p, accessToken = some (.signed p) → ∃ a, p.aud = some a ∧ a ≠ "") :
    Handler.Within (Evolves c P) (logout c refreshToken accessToken) :=
  .bind (deleteIfFound_evolves refreshToken) fun _ => by
    cases accessToken with
    | none => exact .pure _
    | some token =>
      cases token with
      | other => exact .pure _
      | signed p =>
        obtain ⟨a, ha, hne⟩ := hAud p rfl
        simp only [blacklistAccessToken_of_aud ha hne]
        exact .pure _

/-- Every request stays within the relation, with the powers of its kind, if the tokens that it
presents name an audience. -/
theorem handle_evolves (r : Request)
    (hAud : ∀ p, .signed p ∈ r.bearers → ∃ a, p.aud = some a ∧ a ≠ "") :
    Handler.Within (Evolves c r.powers) (handle c r) := by
  cases r with
  | signup => exact .bind (signup_evolves _ _) fun _ => .pure _
  | verifyEmail => exact .bind (verifyEmail_evolves (by rfl) _ _) fun _ => .pure _
  | resendVerification => exact .bind (resendVerification_evolves _) fun _ => .pure _
  | login =>
    exact .bind (login_evolves (by rfl) _ _ _ _ _) fun _ => .bind (.query _) fun _ =>
      loginResponse_evolves _ _
  | mfaVerify => exact .bind (mfaVerify_evolves (by rfl) (by rfl) _ _ _) fun _ => .pure _
  | refresh => exact .bind (refresh_evolves (by rfl) _ _ _) fun _ => .pure _
  | logout refreshToken accessToken =>
    refine .bind (logout_evolves refreshToken fun p hp => ?_) fun _ => .pure _
    subst hp
    exact hAud p (List.mem_singleton.mpr rfl)
  | forgotPassword => exact .bind (forgotPassword_evolves _) fun _ => .pure _
  | resetPassword => exact .bind (resetPassword_evolves _ _) fun _ => .pure _
  | wxcodeExchange =>
    exact .bind (exchangeWxcodeCode_evolves _) fun _ => .bind (.orRaise _ _) fun _ => .pure _
  | oauthCallback =>
    exact .bind (.ensure _ _) fun _ => .bind (resolveOauthAccount_evolves (by rfl) _ _ _ _ _) fun _ =>
      .pure _
  | oauthLinkConfirm => exact .bind (confirmOauthLink_evolves (by rfl) _ _ _ _) fun _ => .pure _
  | mfaEnroll =>
    exact .bind (requireVerified_evolves _) fun _ => .bind (mfaBeginEnrollment_evolves _) fun _ =>
      .pure _
  | mfaConfirm =>
    exact .bind (requireVerified_evolves _) fun _ => .bind (mfaConfirmEnrollment_evolves _ _)
      fun _ => .pure _
  | mfaDisable =>
    exact .bind (requireVerified_evolves _) fun _ => .bind (mfaDisable_evolves _ _) fun _ =>
      .pure _
  | getMe => exact .bind (requireVerified_evolves _) fun _ => .pure _
  | patchMe =>
    exact .bind (requireVerified_evolves _) fun _ => .bind (.ensure _ _) fun _ =>
      .bind (updateProfile_evolves _ _) fun _ => .pure _
  | changePassword =>
    exact .bind (requireVerified_evolves _) fun _ => .bind (getCurrentJti_evolves _) fun _ =>
      .bind (changePassword_evolves _ _ _ _) fun _ => .pure _
  | revokeSession =>
    exact .bind (requireVerified_evolves _) fun _ => .bind (getCurrentJti_evolves _) fun _ =>
      .bind (revokeSession_evolves _ _ _) fun _ => .pure _
  | revokeAllSessions =>
    exact .bind (requireVerified_evolves _) fun _ => .bind (getCurrentJti_evolves _) fun _ =>
      .bind (revokeAllOtherSessions_evolves _ _) fun _ => .pure _
  | createWorkspace =>
    exact .bind (requireVerified_evolves _) fun _ => .bind (createWorkspace_evolves (by rfl) _ _)
      fun _ => .pure _
  | changeMemberRole =>
    exact .bind (requireRole_evolves _ _ _) fun _ => .bind (changeRole_evolves (by rfl) _ _ _ _ _)
      fun _ => .bind (.query _) fun _ => .bind (.ensure _ _) fun _ => .pure _
  | removeMember =>
    exact .bind (requireRole_evolves _ _ _) fun _ => .bind (removeMember_evolves (by rfl) _ _ _)
      fun _ => .pure _
  | leaveTenant =>
    exact .bind (getTenantContext_evolves _ _) fun _ => .bind (leaveTenant_evolves (by rfl) _ _ _)
      fun _ => .pure _
  | initiateTransfer =>
    exact .bind (requireRole_evolves _ _ _) fun _ => .bind (initiateTransfer_evolves (by rfl) _ _ _)
      fun _ => .pure _
  | acceptTransfer =>
    exact .bind (getTenantContext_evolves _ _) fun _ => .bind (acceptTransfer_evolves (by rfl) _ _)
      fun _ => .pure _
  | getPendingTransfer =>
    exact .bind (requireRole_evolves _ _ _) fun _ => .bind (getPendingTransfer_evolves (by rfl) _)
      fun _ => .bind (.orRaise _ _) fun _ => .pure _
  | createInvitation =>
    exact .bind (requireRole_evolves _ _ _) fun _ => .bind (enforceMemberCap_evolves _) fun _ =>
      .bind (inviteUser_evolves (by rfl) _ _ _) fun _ => .pure _
  | acceptInvitation =>
    exact .bind (requireVerified_evolves _) fun _ => .bind (acceptInvitation_evolves (by rfl) _ _)
      fun _ => .pure _
  | cancelInvitation =>
    exact .bind (requireRole_evolves _ _ _) fun _ =>
      .bind (cancelInvitation_evolves (by rfl) _ _) fun _ => .pure _
  | toggleMfaEnforcement =>
    exact .bind (requireRole_evolves _ _ _) fun _ => .bind (.query _) fun _ =>
      .bind (.orRaise _ _) fun _ => .bind (.ite (enableMfaEnforcement_evolves _ _)
        (disableMfaEnforcement_evolves _)) fun _ => .pure _
  | adminLogin =>
    exact .bind (.ensure _ _) fun _ => .bind (adminLogin_evolves (by rfl) _ _) fun _ => .pure _
  | adminRefresh => exact .bind (adminRefresh_evolves (by rfl) _) fun _ => .pure _
  | adminLogout =>
    exact .bind (.bind (requireAdmin_evolves _) fun _ => .pure _) fun _ => .bind (.ofExcept _) fun _ =>
      .bind (adminLogout_evolves _ _) fun _ => .pure _
  | suspendTenant =>
    exact .bind (.bind (requireAdmin_evolves _) fun _ => .pure _) fun _ =>
      .bind (suspendTenant_evolves _) fun _ => .pure _
  | reactivateTenant =>
    exact .bind (.bind (requireAdmin_evolves _) fun _ => .pure _) fun _ =>
      .bind (changeTenant_evolves _ _ _ fun _ => rfl) fun _ => .pure _
  | softDeleteTenant =>
    exact .bind (.bind (requireAdmin_evolves _) fun _ => .pure _) fun _ =>
      .bind (changeTenant_evolves _ _ _ fun _ => rfl) fun _ => .pure _
  | blockUser =>
    exact .bind (.bind (requireAdmin_evolves _) fun _ => .pure _) fun _ =>
      .bind (setBlocked_evolves (by rfl) _ _ _) fun _ => .pure _
  | unblockUser =>
    exact .bind (.bind (requireAdmin_evolves _) fun _ => .pure _) fun _ =>
      .bind (setBlocked_evolves (by rfl) _ _ _) fun _ => .pure _
  | forcePasswordReset =>
    exact .bind (.bind (requireAdmin_evolves _) fun _ => .pure _) fun _ =>
      .bind (forcePasswordReset_evolves _) fun _ => .pure _
  | createCheckoutSession =>
    exact .bind (requireBillingAccess_evolves _ _) fun _ =>
      .bind (createCheckoutSession_evolves _ _) fun _ => .pure _
  | stripeEvent => exact .bind (processStripeEvent_evolves _ _ _) fun _ => .pure _

def Returns {α : Type} (p : α → Prop) (h : App α) : Prop := ∀ s a s', h.run s = .ok a s' → p a

theorem Returns.bind {α β : Type} {p : α → Prop} {x : App β} {k : β → App α}
    (hk : ∀ b, Returns p (k b)) : Returns p (x >>= k) := fun _ _ _ h => by
  obtain ⟨b, m, -, h⟩ := Handler.run_bind_ok.mp h
  exact hk b _ _ _ h

theorem Returns.pure {α : Type} {p : α → Prop} {a : α} (h : p a) :
    Returns p (pure a : App α) := fun _ _ _ hRun => (Handler.run_pure_ok.mp hRun).1 ▸ h

theorem handle_returns {r : Request} (h : r.issues = false) :
    Returns (fun response => response.issued = none) (handle c r) := by
  cases r
  all_goals first
    | (cases h; done)
    | (repeat refine Returns.bind fun _ => ?_
       exact .pure rfl)

theorem loginResponse_yields (result : LoginResult) (user : Option User) :
    Yields Response.issued result.issued (Router.loginResponse c result user) := by
  unfold Router.loginResponse
  split
  · exact .bind (redirectToWxcode_sameTokens _ _) fun _ => .pure rfl
  · exact .pure rfl

/-- A login that issues a pair did so in `login`. -/
theorem login_route_issued {email : String} {password : PyStr} {device ua ip : Option String}
    {response : Response} {t : TokenResponse} {w w' : World}
    (hRun : (Router.login c email password device ua ip).run w = .ok response w')
    (hIssued : response.issued = some t) :
    ∃ m, (login c email password device ua ip).run w = .ok (.tokens t) m := by
  obtain ⟨result, m, hLogin, hResponse⟩ := Handler.run_bind_ok.mp hRun
  rw [Handler.run_query_bind] at hResponse
  rw [(loginResponse_yields result _ _ _ _ hResponse).1] at hIssued
  cases result with
  | mfaRequired => cases hIssued
  | tokens pair =>
    obtain rfl := Option.some.inj hIssued
    exact ⟨m, hLogin⟩

theorem login_route_issues (email : String) (password : PyStr) (device ua ip : Option String) :
    Issues c "wxcode-adm" Response.issued (Router.login c email password device ua ip) :=
  fun s response s' hRun => by
    obtain ⟨result, m, hLogin, hRun⟩ := Handler.run_bind_ok.mp hRun
    obtain ⟨hSome, hNone⟩ := login_issues email password device ua ip _ _ _ hLogin
    rw [Handler.run_query_bind] at hRun
    obtain ⟨hIssued, hSame⟩ := loginResponse_yields result _ _ _ _ hRun
    rw [hIssued]
    exact ⟨fun t ht => (hSome t ht).after hSame, fun h _ hr => hNone h (hSame ▸ hr)⟩

/-- What a request issues, it issues for its audience, and it adds no other refresh token. -/
theorem handle_issues (r : Request)
    (hAud : ∀ p, .signed p ∈ r.bearers → ∃ a, p.aud = some a ∧ a ≠ "") :
    Issues c r.audience Response.issued (handle c r) := by
  by_cases hIssues : r.issues = true
  · cases r with
    | login => exact login_route_issues _ _ _ _ _
    | mfaVerify =>
      intro s a s' h
      obtain ⟨result, m, hVerify, h⟩ := Handler.run_bind_ok.mp h
      obtain ⟨rfl, rfl⟩ := Handler.run_pure_ok.mp h
      exact mfaVerify_issues _ _ _ _ _ _ hVerify
    | refresh => exact .bind_issue (refresh_issues _ _ _) fun _ => .pure rfl
    | oauthCallback =>
      refine .bind_quiet (.ensure _ _) fun _ => fun s a s' h => ?_
      obtain ⟨result, m, hResolve, h⟩ := Handler.run_bind_ok.mp h
      obtain ⟨rfl, rfl⟩ := Handler.run_pure_ok.mp h
      exact resolveOauthAccount_issues _ _ _ _ _ _ _ _ hResolve
    | oauthLinkConfirm => exact .bind_issue (confirmOauthLink_issues _ _ _ _) fun _ => .pure rfl
    | adminLogin =>
      exact .bind_quiet (.ensure _ _) fun _ => .bind_issue (adminLogin_issues _ _) fun _ =>
        .pure rfl
    | adminRefresh => exact .bind_issue (adminRefresh_issues _) fun _ => .pure rfl
    | _ => simp [Request.issues] at hIssues
  · intro s a s' h
    have hNone := handle_returns (by simpa using hIssues) _ _ _ h
    refine ⟨by simp [hNone], fun _ => ?_⟩
    exact ((handle_evolves r hAud).of_ok h).refreshTokens_subset hIssues

end WxcodeAdm
