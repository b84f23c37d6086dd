import WxcodeAdm.Accounts
import WxcodeAdm.Credentials
import WxcodeAdm.Guarantees.TenantTeams
import WxcodeAdm.Moves

/-! Accounts are apart.  A request leaves the account of a user as it is, unless it presents a
credential of that user, or the platform, an owner of one of the user's tenants or Stripe ends the
user's sessions by it. -/

namespace WxcodeAdm

open Lib

/-- The refresh token that a request presents. -/
def Request.refreshToken : Request → Option String
  | .refresh token _ _ | .logout token _ | .adminRefresh token | .adminLogout _ token => some token
  | _ => none

/-- The address and the password that a request presents. -/
def Request.password : Request → Option (String × PyStr)
  | .login email password .. => some (email, password)
  | .adminLogin email password _ => some (email, password)
  | _ => none

/-- The token of a user who works on the own account. -/
def Request.onSelf : Request → Option Bearer
  | .mfaEnroll token | .mfaConfirm token _ | .mfaDisable token _ | .patchMe token _
  | .changePassword token _ _ | .revokeSession token _ | .revokeAllSessions token => some token
  | _ => none

/-- How a request reaches the account of a user. -/
inductive Reaches (c : Ctx) (w : World) (id : Uuid) : Request → Prop
  | signedIn {r token user} (presents : r.onSelf = some token)
      (guard : ∃ m, (requireVerified c token).run w = .ok user m) (is : user.id = id) :
      Reaches c w id r
  | password {r email password user} (presents : r.password = some (email, password))
      (found : w.db.userByEmail email = some user) (is : user.id = id)
      (verified : verifyPassword c password user.passwordHash = .ok true) : Reaches c w id r
  | refreshToken {r token row} (presents : r.refreshToken = some token)
      (found : w.db.refreshToken token = some row) (owner : row.userId = id) : Reaches c w id r
  | secondFactor {body ua ip user}
      (pending : w.cache.mfaPending.get c.now body.mfaToken = some (.plain id))
      (found : w.db.user id = some user)
      (accepted : ∃ m, (verifySecondFactor c user body.code).run w = .ok () m) :
      Reaches c w id (.mfaVerify body ua ip)
  | emailCode {email code user} (found : w.db.userByEmail email = some user) (is : user.id = id)
      (accepted : w.cache.otp.get c.now id = some code) : Reaches c w id (.verifyEmail email code)
  | resetLink {token new email user payload} (names : resetTokenEmail token = .ok email)
      (found : w.db.userByEmail email = some user) (is : user.id = id)
      (genuine : verifyResetToken c token (resetSalt c user) = .ok payload) :
      Reaches c w id (.resetPassword token new)
  | provider {provider email puid ua ip account} (found : account ∈ w.db.oauthAccounts)
      (names : account.provider = provider ∧ account.providerUserId = puid)
      (owner : account.userId = id) : Reaches c w id (.oauthCallback provider email puid ua ip)
  | linkPassword {linkToken password ua ip link user}
      (asked : w.cache.oauthLink.get c.now linkToken = some link) (is : link.userId = id)
      (found : w.db.user id = some user)
      (verified : verifyPassword c password user.passwordHash = .ok true) :
      Reaches c w id (.oauthLinkConfirm linkToken password ua ip)
  | enforced {token header tenant owner user}
      (guard : ∃ m, (requireRole c .owner token header).run w = .ok (tenant, owner) m)
      (member : id ∈ w.db.memberIds tenant.id) (found : w.db.user id = some user)
      (without : user.mfaEnabled = false) : Reaches c w id (.toggleMfaEnforcement token header true)
  | suspended {token tenantId admin} (guard : ∃ m, (requireAdmin c token).run w = .ok admin m)
      (member : id ∈ w.db.memberIds tenantId) : Reaches c w id (.suspendTenant token tenantId)
  | forced {token admin} (guard : ∃ m, (requireAdmin c token).run w = .ok admin m) :
      Reaches c w id (.forcePasswordReset token id)
  | unpaid {eventId dataObject subscription}
      (invoice : ∃ m, (invoiceSubscription dataObject).run w = .ok (some subscription) m)
      (member : id ∈ w.db.memberIds subscription.tenantId) :
      Reaches c w id (.stripeEvent eventId "invoice.payment_failed" dataObject)

/-! ### Requests -/

section Requests

variable {c : Ctx} {w w' : World} {id : Uuid} {r : Request} {response : Response}

/-- The caller of a request on the own account is somebody else. -/
theorem not_self {token : Bearer} {user : User} {m : World} (hFar : ¬Reaches c w id r)
    (hSelf : r.onSelf = some token) (hUser : (requireVerified c token).run w = .ok user m) :
    user.id ≠ id := fun hIs => hFar (.signedIn hSelf ⟨m, hUser⟩ hIs)

theorem revokeSessionsOf_account {account : Account} {userIds : List Uuid} (hOthers : id ∉ userIds) :
    Handler.Preserves (Db.AccountApart id account) (revokeSessionsOf c userIds) :=
  fun _ _ _ hRun hApart => by
    rw [run_revokeSessionsOf] at hRun
    cases hRun
    refine hApart.deleteRefreshTokens fun r _ hGone hOwner => hOthers ?_
    exact hOwner ▸ of_decide_eq_true hGone

theorem deleteIfFound_account {token : String} {m : World} (hValid : w.db.Valid)
    (hApart : w.db.AccountApart id (w.db.account id))
    (hFar : ∀ row, w.db.refreshToken token = some row → row.userId ≠ id)
    (hRun : (deleteIfFound token).run w = .ok () m) : m.db.AccountIs id (w.db.account id) := by
  rw [deleteIfFound, Handler.run_query_bind] at hRun
  cases hFound : w.db.refreshToken token with
  | none =>
    rw [hFound] at hRun
    obtain ⟨-, rfl⟩ := Handler.run_pure_ok.mp hRun
    exact hApart.same
  | some row =>
    rw [hFound, Handler.run_exec] at hRun
    cases hRun
    refine (hApart.deleteRefreshTokens fun r hr hId => ?_).same
    obtain rfl := List.inj_on_of_nodup_map hValid.refreshTokenId hr
      (Db.refreshToken_mem_tokens hFound) (of_decide_eq_true hId)
    exact hFar _ hFound

theorem verifyEmail_account {email code : String} (hFar : ¬Reaches c w id (.verifyEmail email code))
    (hRun : (verifyEmail c email code).run w = .ok () w') :
    w'.db.AccountIs id (w.db.account id) := by
  simp only [verifyEmail, Handler.run_query_bind, Handler.run_orRaise_bind_ok,
    Handler.run_ite_ok] at hRun
  obtain ⟨user, hUser, ⟨-, hRun⟩ | ⟨-, hRun⟩⟩ := hRun
  · obtain ⟨-, rfl⟩ := Handler.run_pure_ok.mp hRun
    rfl
  · obtain ⟨valid, m, hVerify, hRun⟩ := Handler.run_bind_ok.mp hRun
    simp only [Handler.run_ensure_bind_ok] at hRun
    obtain ⟨rfl, hRun⟩ := hRun
    have hOther : user.id ≠ id := fun hIs =>
      hFar (.emailCode hUser hIs (hIs ▸ verifyOtpCode_true hVerify))
    have hMark : Handler.Preserves (Db.AccountIs id (w.db.account id)) (markVerified c user) :=
      .bind (updateUser_account hOther fun _ => rfl) fun _ =>
        .bind ((autoJoinPendingInvitations_touches _).keepsAccount (by decide)) fun _ => .pure _
    exact hMark _ _ _ hRun ((verifyOtpCode_touches _ _).keepsAccount (by decide) _ _ _ hVerify rfl)

theorem login_account {email : String} {password : PyStr} {device ua ip : Option String}
    (hApart : w.db.AccountApart id (w.db.account id))
    (hFar : ¬Reaches c w id (.login email password device ua ip))
    (hRun : (Router.login c email password device ua ip).run w = .ok response w') :
    w'.db.AccountIs id (w.db.account id) := by
  obtain ⟨result, m, hLogin, hRun⟩ := Handler.run_bind_ok.mp hRun
  rw [Handler.run_query_bind] at hRun
  have hUsers : m.db.users = w.db.users := (login_touches _ _ _ _ _ .users (by simp)).of_ok hLogin
  simp only [login, Handler.run_query_bind, Handler.run_orRaise_bind_ok,
    Handler.run_ensure_bind_ok, Handler.run_ofExcept_bind_ok] at hLogin
  obtain ⟨user, hUser, -, _, hVerified, rfl, -, hLogin⟩ := hLogin
  have hOther : user.id ≠ id := fun hIs => hFar (.password rfl hUser hIs hVerified)
  have hSame := loginVerified_account hOther device ua ip _ _ _ hLogin hApart
  rw [show m.db.userByEmail email = some user by rw [Db.userByEmail, hUsers]; exact hUser] at hRun
  unfold Router.loginResponse at hRun
  split at hRun
  · rename_i hFound
    obtain rfl := Option.some.inj hFound
    obtain ⟨redirect, m', hRedirect, hRun⟩ := Handler.run_bind_ok.mp hRun
    obtain ⟨-, rfl⟩ := Handler.run_pure_ok.mp hRun
    exact redirectToWxcode_account hOther _ _ _ _ hRedirect hSame
  · obtain ⟨-, rfl⟩ := Handler.run_pure_ok.mp hRun
    exact hSame

theorem mfaVerify_account {body : MfaVerifyRequest} {ua ip : Option String}
    {result : MfaVerifyResult} (hApart : w.db.AccountApart id (w.db.account id))
    (hFar : ¬Reaches c w id (.mfaVerify body ua ip))
    (hRun : (mfaVerify c body ua ip).run w = .ok result w') :
    w'.db.AccountIs id (w.db.account id) := by
  simp only [mfaVerify, Handler.run_lookup_bind, Handler.run_orRaise_bind_ok,
    Handler.run_ofExcept_bind_ok, Handler.run_query_bind, Handler.run_ensure_bind_ok] at hRun
  obtain ⟨pending, hPending, userId, hId, user, hUser, -, -, hRun⟩ := hRun
  obtain ⟨⟨⟩, m, hFactor, hRun⟩ := Handler.run_bind_ok.mp hRun
  cases pending with
  | setupRequired => cases hId
  | plain =>
    cases hId
    have hOther : user.id ≠ id := fun hIs => by
      obtain rfl := (Db.user_id hUser).symm.trans hIs
      exact hFar (.secondFactor hPending hUser ⟨m, hFactor⟩)
    exact completeMfaLogin_account hOther body ua ip _ _ _ hRun
      (verifySecondFactor_account hOther _ _ _ _ hFactor hApart)

theorem oauthSignup_account {account : Account} {provider email puid : String}
    {ua ip : Option String} (hNew : c.draws.userId ≠ id) :
    Handler.Takes (Db.AccountApart id account) (Db.AccountIs id account)
      (oauthSignup c provider email puid ua ip) := by
  have hUser : ({ id := c.draws.userId, email, passwordHash := none } : User).id ≠ id := hNew
  have hLinked : Handler.Preserves (Db.AccountIs id account)
      (addOAuthAccount { userId := c.draws.userId, provider, providerUserId := puid }) :=
    .bind (.exec fun _ h => h.addOAuthAccount hNew) fun _ => touches_flush.keepsAccount (by decide)
  refine .bind (.of_preserves (.exec fun _ h => h.frame (h.same.addUser hUser) rfl rfl rfl)
    fun _ h => h) fun _ => ?_
  refine .bind (.of_preserves (touches_flush.keepsApart (by decide)) fun _ h => h) fun _ => ?_
  refine .bind (.of_preserves (keepsApart_of_keeps hLinked (addOAuthAccount_touches _) (by simp)
    (by simp) (by simp)) fun _ h => h) fun _ => ?_
  refine .bind (.of_preserves ((createVerificationCode_touches _).keepsApart (by decide))
    fun _ h => h) fun _ => ?_
  refine .bind (.of_preserves ((touches_enqueueJob _).keepsApart (by decide)) fun _ h => h)
    fun _ => ?_
  exact .bind (.of_preserves (.query _) fun _ h => h) fun _ =>
    .bind (issueTokens_account hUser ua ip) fun _ => .pure _ fun _ h => h

theorem oauthCallback_account {provider email puid : String} {ua ip : Option String}
    {result : OAuthResult} (hHas : w.db.HasUser id) (hApart : w.db.AccountApart id (w.db.account id))
    (hFar : ¬Reaches c w id (.oauthCallback provider email puid ua ip))
    (hRun : (resolveOauthAccount c provider email puid ua ip).run w = .ok result w') :
    w'.db.AccountIs id (w.db.account id) := by
  rw [resolveOauthAccount, Handler.run_query_bind] at hRun
  split at hRun
  · rename_i account hFound
    simp only [oauthLogin, Handler.run_query_bind, Handler.run_orRaise_bind_ok] at hRun
    obtain ⟨user, hUser, hRun⟩ := hRun
    obtain ⟨tokens, m, hIssue, hRun⟩ := Handler.run_bind_ok.mp hRun
    simp only [Handler.run_query_bind, Handler.run_pure_ok] at hRun
    obtain ⟨-, rfl⟩ := hRun
    have hNames := List.find?_some hFound
    refine issueTokens_account (fun hIs => hFar ?_) ua ip _ _ _ hIssue hApart
    exact .provider (List.mem_of_find?_eq_some hFound) (of_decide_eq_true hNames)
      ((Db.user_id hUser).symm.trans hIs)
  · rw [Handler.run_query_bind] at hRun
    split at hRun
    · simp only [Handler.run_ite_ok, Handler.run_throw_ok, and_false, or_false, oauthLinkRequired,
        Handler.run_store_bind, Handler.run_pure_ok] at hRun
      obtain ⟨-, -, rfl⟩ := hRun
      exact hApart.same
    · exact oauthSignup_account (fun hIs => (oauthSignup_ok hRun).1 (hIs ▸ hHas)) _ _ _ hRun hApart

theorem oauthLinkConfirm_account {linkToken password : PyStr} {ua ip : Option String}
    {tokens : TokenResponse} (hApart : w.db.AccountApart id (w.db.account id))
    (hFar : ¬Reaches c w id (.oauthLinkConfirm linkToken password ua ip))
    (hRun : (confirmOauthLink c linkToken password ua ip).run w = .ok tokens w') :
    w'.db.AccountIs id (w.db.account id) := by
  simp only [confirmOauthLink, Handler.run_lookup_bind, Handler.run_orRaise_bind_ok,
    Handler.run_query_bind, Handler.run_ofExcept_bind_ok, Handler.run_ensure_bind_ok,
    Handler.run_store_bind] at hRun
  obtain ⟨link, hLink, user, hUser, _, hVerified, rfl, hRun⟩ := hRun
  have hOther : user.id ≠ id := fun hIs => by
    obtain rfl := (Db.user_id hUser).symm.trans hIs
    exact hFar (.linkPassword hLink rfl hUser hVerified)
  obtain ⟨⟨⟩, m, hAdd, hRun⟩ := Handler.run_bind_ok.mp hRun
  have hAccount : Handler.Preserves (Db.AccountIs id (w.db.account id)) (addOAuthAccount
      { userId := user.id, provider := link.provider, providerUserId := link.providerUserId }) :=
    .bind (.exec fun _ h => h.addOAuthAccount hOther) fun _ => touches_flush.keepsAccount (by decide)
  exact issueTokens_account hOther ua ip _ _ _ hRun <| keepsApart_of_keeps hAccount
    (addOAuthAccount_touches _) (by simp) (by simp) (by simp) _ _ _ hAdd hApart

theorem refresh_account {token : String} {ua ip : Option String} {t : TokenResponse}
    (hValid : w.db.Valid) (hApart : w.db.AccountApart id (w.db.account id))
    (hFar : ¬Reaches c w id (.refresh token ua ip))
    (hRun : (refresh c token ua ip).run w = .ok t w') : w'.db.AccountIs id (w.db.account id) := by
  obtain ⟨row, hRow, -, hRotate⟩ := refresh_ok hRun
  have hMem := Db.refreshToken_mem_tokens hRow
  rw [rotate_db hMem hRotate]
  exact hApart.rotated hValid.refreshTokenId hMem (fun hIs => hFar (.refreshToken rfl hRow hIs))
    ua ip

theorem resetPassword_account {token : TimedToken Json} {new : String}
    (hApart : w.db.AccountApart id (w.db.account id))
    (hFar : ¬Reaches c w id (.resetPassword token new))
    (hRun : (resetPassword c token new).run w = .ok () w') :
    w'.db.AccountIs id (w.db.account id) := by
  obtain ⟨email, user, payload, hNames, hUser, hGenuine, rfl⟩ := resetPassword_ok hRun
  have hOther : user.id ≠ id := fun hIs => hFar (.resetLink hNames hUser hIs hGenuine)
  refine (Db.AccountApart.deleteRefreshTokens (hApart.frame
    (hApart.same.updateUser (by intro; rfl) hOther) rfl rfl rfl) fun r _ hGone => ?_).same
  exact of_decide_eq_true hGone ▸ hOther

theorem revokeSession_account {user : User} {sessionId : String} {jti : Uuid} (hValid : w.db.Valid)
    (hTied : w.db.SessionsTied) (hOther : user.id ≠ id)
    (hRun : (revokeSession c user sessionId jti).run w = .ok () w') :
    w'.db.AccountIs id (w.db.account id) := by
  simp only [revokeSession, blacklistJti, Handler.run_orRaise_bind_ok, Handler.run_query_bind,
    Handler.run_ensure_bind_ok, Handler.run_store_bind, Handler.run_exec, Outcome.ok.injEq,
    true_and] at hRun
  obtain ⟨_, -, session, hFound, -, rfl⟩ := hRun
  have hOwner : session.userId = user.id := by
    have hKeys := List.find?_some hFound
    exact (of_decide_eq_true hKeys).2
  -- the token that goes is the one of the session, so it is the caller's
  obtain ⟨row, hRow, hId, hUser⟩ := hTied session (List.mem_of_find?_eq_some hFound)
  refine ((hValid.accountApart hTied id).deleteRefreshTokens fun r hr hGone => ?_).same
  obtain rfl := List.inj_on_of_nodup_map hValid.refreshTokenId hr hRow
    ((of_decide_eq_true hGone).trans hId.symm)
  rw [hUser, hOwner]
  exact hOther

theorem setMfaEnforcement_account {tenant : Tenant} {actor : User} {enforce : Bool}
    (hApart : w.db.AccountApart id (w.db.account id))
    (hFar : enforce = true → id ∈ w.db.memberIds tenant.id →
      ∀ user, w.db.user id = some user → user.mfaEnabled = true)
    (hRun : (Router.setMfaEnforcement tenant actor enforce).run w = .ok () w') :
    w'.db.AccountIs id (w.db.account id) := by
  cases enforce with
  | false =>
    simp only [Router.setMfaEnforcement, Bool.false_eq_true, if_false, disableMfaEnforcement,
      Handler.run_exec, Outcome.ok.injEq, true_and] at hRun
    subst hRun
    exact hApart.same
  | true =>
    simp only [Router.setMfaEnforcement, if_true, enableMfaEnforcement, Handler.run_ensure_bind_ok,
      Handler.run_exec_bind, Handler.run_query_bind, Handler.run_exec, Outcome.ok.injEq,
      true_and] at hRun
    obtain ⟨-, rfl⟩ := hRun
    have hEnforced : (w.db.updateTenant tenant.id fun t =>
        { t with mfaEnforced := true }).AccountApart id (w.db.account id) :=
      hApart.frame hApart.same rfl rfl rfl
    refine (hEnforced.deleteRefreshTokens fun r _ hGone hIs => ?_).same
    obtain ⟨hMember, hWithout⟩ := List.mem_filter.mp (of_decide_eq_true hGone)
    rw [hIs] at hMember hWithout
    obtain ⟨user, hUser, hOff⟩ := (Option.any_eq_true _ _).mp hWithout
    rw [hFar rfl hMember user hUser] at hOff
    cases hOff

theorem adminLogin_account {email password : String} {ip : Option String} {t : TokenResponse}
    (hApart : w.db.AccountApart id (w.db.account id))
    (hFar : ¬Reaches c w id (.adminLogin email password ip))
    (hRun : (adminLogin c email password).run w = .ok t w') :
    w'.db.AccountIs id (w.db.account id) := by
  simp only [adminLogin, Handler.run_query_bind, Handler.run_orRaise_bind_ok,
    Handler.run_ensure_bind_ok, Handler.run_exec_bind, Handler.run_pure_ok] at hRun
  obtain ⟨user, hUser, -, hPassword, -, rfl⟩ := hRun
  have hOther : user.id ≠ id := fun hIs => by
    obtain ⟨hash, hHash, hVerified⟩ := (Option.any_eq_true _ _).mp hPassword
    simp only [Bool.and_eq_true] at hVerified
    refine hFar (.password rfl hUser hIs ?_)
    rw [hHash, verifyPassword_text, hVerified.2]
  exact hApart.same.addRefreshToken (r := newRefreshToken c user.id) hOther

theorem processStripeEvent_account {eventId eventType : String} {dataObject : Json}
    (hApart : w.db.AccountApart id (w.db.account id))
    (hFar : ¬Reaches c w id (.stripeEvent eventId eventType dataObject))
    (hRun : (processStripeEvent c eventId eventType dataObject).run w = .ok () w') :
    w'.db.AccountIs id (w.db.account id) := by
  rw [processStripeEvent, Handler.run_query_bind] at hRun
  split at hRun
  · obtain ⟨-, rfl⟩ := Handler.run_pure_ok.mp hRun
    exact hApart.same
  · obtain ⟨⟨⟩, m, hHandle, hRun⟩ := Handler.run_bind_ok.mp hRun
    have hRecord : Handler.Preserves (Db.AccountIs id (w.db.account id))
        (recordStripeEvent c eventId eventType) :=
      .bind (touches_webhookEvents.keepsAccount (by decide)) fun _ =>
        touches_flush.keepsAccount (by decide)
    refine hRecord _ _ _ hRun ?_
    unfold handleStripeEvent at hHandle
    split at hHandle
    · exact (handleCheckoutCompleted_touches _).keepsAccount (by decide) _ _ _ hHandle hApart.same
    · exact (handleSubscriptionUpdated_touches _).keepsAccount (by decide) _ _ _ hHandle hApart.same
    · exact (handleSubscriptionDeleted_touches _).keepsAccount (by decide) _ _ _ hHandle hApart.same
    · exact (handleInvoicePaid_touches _).keepsAccount (by decide) _ _ _ hHandle hApart.same
    · obtain ⟨found, m', hInvoice, hHandle⟩ := Handler.run_bind_ok.mp hHandle
      obtain hSame := (invoiceSubscription_touches _).keepsApart (by decide) _ _ _ hInvoice hApart
      cases found with
      | none =>
        obtain ⟨-, rfl⟩ := Handler.run_pure_ok.mp hHandle
        exact hSame.same
      | some subscription =>
        have hMembers : m'.db.memberships = w.db.memberships :=
          (invoiceSubscription_touches _ .memberships (by simp)).of_ok hInvoice
        have hOthers : id ∉ m'.db.memberIds subscription.tenantId := by
          rw [Db.memberIds, hMembers]
          exact fun hMember => hFar (.unpaid ⟨m', hInvoice⟩ hMember)
        rw [Handler.run_exec_bind, Handler.run_query_bind] at hHandle
        obtain ⟨⟨⟩, m'', hRevoke, hHandle⟩ := Handler.run_bind_ok.mp hHandle
        have hRevoked := revokeSessionsOf_account hOthers _ _ _ hRevoke
          (hSame.frame hSame.same rfl rfl rfl)
        rw [Handler.run_query_bind, Handler.run_query_bind, run_forM_enqueueJob] at hHandle
        cases hHandle
        exact hRevoked.same
    · obtain ⟨-, rfl⟩ := Handler.run_pure_ok.mp hHandle
      exact hApart.same

/-- A guard for super-admins that was passed. -/
theorem asAdmin_ok {α : Type} {token : Bearer} {k : App α} {a : α}
    (hRun : (do discard <| requireAdmin c token; k : App α).run w = .ok a w') :
    (∃ admin, (requireAdmin c token).run w = .ok admin w) ∧ k.run w = .ok a w' := by
  obtain ⟨⟨⟩, m, hGuard, hRest⟩ := Handler.run_bind_ok.mp hRun
  obtain ⟨admin, hAdmin⟩ := Handler.run_discard_ok.mp hGuard
  obtain ⟨p, -, -, -, -, -, -, -, hSame⟩ := requireAdmin_ok.mp hAdmin
  exact ⟨⟨admin, hSame ▸ hAdmin⟩, hSame ▸ hRest⟩

/-- A request of somebody on the own account leaves the others. -/
theorem onSelf_account {token : Bearer} (hValid : w.db.Valid) (hTied : w.db.SessionsTied)
    (hSelf : r.onSelf = some token) (hFar : ¬Reaches c w id r)
    (hRun : (handle c r).run w = .ok response w') : w'.db.AccountIs id (w.db.account id) := by
  have hApart := hValid.accountApart hTied id
  cases r with
  | mfaEnroll token =>
    obtain ⟨user, ⟨db, cache⟩, hUser, hRun⟩ := Handler.run_bind_ok.mp hRun
    obtain ⟨secret, m', hEnroll, hRun⟩ := Handler.run_bind_ok.mp hRun
    obtain ⟨-, rfl⟩ := Handler.run_pure_ok.mp hRun
    obtain rfl : db = w.db := (requireVerified_ok hUser).1
    exact mfaBeginEnrollment_account (not_self hFar rfl hUser) _ _ _ hEnroll hApart.same
  | mfaConfirm token code =>
    obtain ⟨user, ⟨db, cache⟩, hUser, hRun⟩ := Handler.run_bind_ok.mp hRun
    obtain ⟨codes, m', hConfirm, hRun⟩ := Handler.run_bind_ok.mp hRun
    obtain ⟨-, rfl⟩ := Handler.run_pure_ok.mp hRun
    obtain rfl : db = w.db := (requireVerified_ok hUser).1
    exact mfaConfirmEnrollment_account (not_self hFar rfl hUser) code _ _ _ hConfirm hApart.same
  | mfaDisable token code =>
    obtain ⟨user, ⟨db, cache⟩, hUser, hRun⟩ := Handler.run_bind_ok.mp hRun
    obtain ⟨⟨⟩, m', hDisable, hRun⟩ := Handler.run_bind_ok.mp hRun
    obtain ⟨-, rfl⟩ := Handler.run_pure_ok.mp hRun
    obtain rfl : db = w.db := (requireVerified_ok hUser).1
    exact mfaDisable_account (not_self hFar rfl hUser) code _ _ _ hDisable hApart
  | patchMe token body =>
    obtain ⟨user, ⟨db, cache⟩, hUser, hRun⟩ := Handler.run_bind_ok.mp hRun
    simp only [Handler.run_ensure_bind_ok] at hRun
    obtain ⟨⟨⟩, m', hUpdate, hRun⟩ := Handler.run_bind_ok.mp hRun.2
    obtain ⟨-, rfl⟩ := Handler.run_pure_ok.mp hRun
    obtain rfl : db = w.db := (requireVerified_ok hUser).1
    exact updateProfile_account (not_self hFar rfl hUser) body _ _ _ hUpdate hApart.same
  | changePassword token current new =>
    obtain ⟨user, ⟨db, cache⟩, hUser, hRun⟩ := Handler.run_bind_ok.mp hRun
    obtain ⟨p, -, -, hRun, hDb, -⟩ := run_signedIn hUser hRun
    obtain rfl : db = w.db := hDb
    obtain ⟨⟨⟩, m', hChange, hRun⟩ := Handler.run_bind_ok.mp hRun
    obtain ⟨-, rfl⟩ := Handler.run_pure_ok.mp hRun
    exact (changePassword_account (not_self hFar rfl hUser) _ _ _ _ _ _ hChange hApart).same
  | revokeSession token sessionId =>
    obtain ⟨user, ⟨db, cache⟩, hUser, hRun⟩ := Handler.run_bind_ok.mp hRun
    obtain ⟨p, -, -, hRun, hDb, -⟩ := run_signedIn hUser hRun
    obtain rfl : db = w.db := hDb
    obtain ⟨⟨⟩, m', hRevoke, hRun⟩ := Handler.run_bind_ok.mp hRun
    obtain ⟨-, rfl⟩ := Handler.run_pure_ok.mp hRun
    exact revokeSession_account (w := ⟨w.db, cache⟩) hValid hTied (not_self hFar rfl hUser) hRevoke
  | revokeAllSessions token =>
    obtain ⟨user, ⟨db, cache⟩, hUser, hRun⟩ := Handler.run_bind_ok.mp hRun
    obtain ⟨p, -, -, hRun, hDb, -⟩ := run_signedIn hUser hRun
    obtain rfl : db = w.db := hDb
    obtain ⟨count, m', hRevoke, hRun⟩ := Handler.run_bind_ok.mp hRun
    obtain ⟨-, rfl⟩ := Handler.run_pure_ok.mp hRun
    exact (revokeOtherSessions_account (not_self hFar rfl hUser) _ _ _ _ hRevoke hApart).same
  | _ => cases hSelf

theorem logout_account {refreshToken : String} {accessToken : Option Bearer} (hValid : w.db.Valid)
    (hApart : w.db.AccountApart id (w.db.account id))
    (hFar : ¬Reaches c w id (.logout refreshToken accessToken))
    (hRun : (logout c refreshToken accessToken).run w = .ok () w') :
    w'.db.AccountIs id (w.db.account id) := by
  obtain ⟨⟨⟩, m, hDelete, hRun⟩ := Handler.run_bind_ok.mp hRun
  have hSame := deleteIfFound_account hValid hApart
    (fun row hRow hIs => hFar (.refreshToken rfl hRow hIs)) hDelete
  cases accessToken with
  | none =>
    obtain ⟨-, rfl⟩ := Handler.run_pure_ok.mp hRun
    exact hSame
  | some token =>
    exact (blacklistAccessToken_touches token).keepsAccount (by decide) _ _ _ hRun hSame

theorem toggleMfaEnforcement_account {token : Bearer} {header : Option String} {enforce : Bool}
    (hApart : w.db.AccountApart id (w.db.account id))
    (hFar : ¬Reaches c w id (.toggleMfaEnforcement token header enforce))
    (hRun : (handle c (.toggleMfaEnforcement token header enforce)).run w = .ok response w') :
    w'.db.AccountIs id (w.db.account id) := by
  obtain ⟨⟨tenant, actor⟩, ⟨db, cache⟩, hGuard, hRun⟩ := Handler.run_bind_ok.mp hRun
  obtain rfl : db = w.db := (requireRole_ok hGuard).1
  simp only [Handler.run_query_bind, Handler.run_orRaise_bind_ok] at hRun
  obtain ⟨user, -, hRun⟩ := hRun
  obtain ⟨⟨⟩, m', hSet, hRun⟩ := Handler.run_bind_ok.mp hRun
  obtain ⟨-, rfl⟩ := Handler.run_pure_ok.mp hRun
  refine setMfaEnforcement_account (w := ⟨w.db, cache⟩) hApart (fun hOn hMember user hUser => ?_)
    hSet
  subst hOn
  by_contra hOff
  exact hFar (.enforced ⟨_, hGuard⟩ hMember hUser (by simpa using hOff))

/-! The requests of a super-admin. -/

theorem adminRefresh_account {token : String} {t : TokenResponse} (hValid : w.db.Valid)
    (hApart : w.db.AccountApart id (w.db.account id)) (hFar : ¬Reaches c w id (.adminRefresh token))
    (hRun : (adminRefresh c token).run w = .ok t w') : w'.db.AccountIs id (w.db.account id) := by
  obtain ⟨row, hRow, -, -, hDb⟩ := adminRefresh_ok hRun
  rw [hDb]
  exact hApart.replaceToken hValid.refreshTokenId (Db.refreshToken_mem_tokens hRow)
    fun hIs => hFar (.refreshToken rfl hRow hIs)

theorem adminLogout_account {token : Bearer} {refreshToken : String} (hValid : w.db.Valid)
    (hApart : w.db.AccountApart id (w.db.account id))
    (hFar : ¬Reaches c w id (.adminLogout token refreshToken))
    (hRun : (handle c (.adminLogout token refreshToken)).run w = .ok response w') :
    w'.db.AccountIs id (w.db.account id) := by
  simp only [handle, Router.adminLogout] at hRun
  obtain ⟨-, hRun⟩ := asAdmin_ok hRun
  simp only [Handler.run_ofExcept_bind_ok] at hRun
  obtain ⟨payload, -, hRun⟩ := hRun
  obtain ⟨⟨⟩, m, hLogout, hRun⟩ := Handler.run_bind_ok.mp hRun
  obtain ⟨-, rfl⟩ := Handler.run_pure_ok.mp hRun
  obtain ⟨⟨⟩, m', hDelete, hLogout⟩ := Handler.run_bind_ok.mp hLogout
  have hSame := deleteIfFound_account hValid hApart
    (fun row hRow hIs => hFar (.refreshToken rfl hRow hIs)) hDelete
  cases hLogout
  exact hSame

theorem suspendTenant_account {token : Bearer} {tenantId : Uuid}
    (hApart : w.db.AccountApart id (w.db.account id))
    (hFar : ¬Reaches c w id (.suspendTenant token tenantId))
    (hRun : (handle c (.suspendTenant token tenantId)).run w = .ok response w') :
    w'.db.AccountIs id (w.db.account id) := by
  obtain ⟨⟨admin, hAdmin⟩, hRun⟩ := asAdmin_ok hRun
  obtain ⟨⟨⟩, m, hSuspend, hRun⟩ := Handler.run_bind_ok.mp hRun
  obtain ⟨-, rfl⟩ := Handler.run_pure_ok.mp hRun
  obtain ⟨⟨⟩, m', hChange, hSuspend⟩ := Handler.run_bind_ok.mp hSuspend
  have hSame := (changeTenant_touches _ _ _ _).keepsApart (by decide) _ _ _ hChange hApart
  have hMembers : m'.db.memberships = w.db.memberships :=
    (changeTenant_touches _ _ _ _ .memberships (by simp)).of_ok hChange
  rw [Handler.run_query_bind] at hSuspend
  refine (revokeSessionsOf_account ?_ _ _ _ hSuspend hSame).same
  rw [Db.memberIds, hMembers]
  exact fun hMember => hFar (.suspended ⟨_, hAdmin⟩ hMember)

theorem forcePasswordReset_account {token : Bearer} {userId : Uuid}
    (hApart : w.db.AccountApart id (w.db.account id))
    (hFar : ¬Reaches c w id (.forcePasswordReset token userId))
    (hRun : (handle c (.forcePasswordReset token userId)).run w = .ok response w') :
    w'.db.AccountIs id (w.db.account id) := by
  obtain ⟨⟨admin, hAdmin⟩, hRun⟩ := asAdmin_ok hRun
  obtain ⟨⟨⟩, m, hForce, hRun⟩ := Handler.run_bind_ok.mp hRun
  obtain ⟨-, rfl⟩ := Handler.run_pure_ok.mp hRun
  simp only [forcePasswordReset, Handler.run_query_bind, Handler.run_orRaise_bind_ok,
    Handler.run_exec_bind] at hForce
  obtain ⟨user, hUser, hForce⟩ := hForce
  have hOther : userId ≠ id := by
    rintro rfl
    exact hFar (.forced ⟨_, hAdmin⟩)
  obtain ⟨⟨⟩, m', hRevoke, hForce⟩ := Handler.run_bind_ok.mp hForce
  have hRevoked := revokeSessionsOf_account (by simpa using hOther.symm) _ _ _ hRevoke
    (hApart.frame (hApart.same.updateUser (by intro; rfl) hOther) rfl rfl rfl)
  simp only [run_flush_bind_ok, enqueueJob, Handler.run_store, Outcome.ok.injEq,
    true_and] at hForce
  obtain ⟨-, rfl⟩ := hForce
  exact hRevoked.same

/-- A request that commits leaves every account that it does not reach. -/
theorem handle_account (hValid : w.db.Valid) (hTied : w.db.SessionsTied) (hHas : w.db.HasUser id)
    (hFar : ¬Reaches c w id r) (hRun : (handle c r).run w = .ok response w') :
    w'.db.account id = w.db.account id := by
  have hApart := hValid.accountApart hTied id
  by_cases hQuiet : ∀ p ∈ Account.parts, p ∉ r.parts
  · exact (handle_touches r).keepsAccount hQuiet _ _ _ hRun rfl
  · cases r with
    | signup email password =>
      obtain ⟨user, m, hSignup, hRun⟩ := Handler.run_bind_ok.mp hRun
      obtain ⟨-, rfl⟩ := Handler.run_pure_ok.mp hRun
      obtain ⟨-, -, hNew, hDb⟩ := signup_ok hSignup
      rw [hDb]
      exact hApart.same.addUser fun hIs => hNew (hIs ▸ hHas)
    | verifyEmail email code =>
      obtain ⟨⟨⟩, m, hVerify, hRun⟩ := Handler.run_bind_ok.mp hRun
      obtain ⟨-, rfl⟩ := Handler.run_pure_ok.mp hRun
      exact verifyEmail_account hFar hVerify
    | login => exact login_account hApart hFar hRun
    | mfaVerify =>
      obtain ⟨result, m, hVerify, hRun⟩ := Handler.run_bind_ok.mp hRun
      obtain ⟨-, rfl⟩ := Handler.run_pure_ok.mp hRun
      exact mfaVerify_account hApart hFar hVerify
    | refresh =>
      obtain ⟨tokens, m, hRefresh, hRun⟩ := Handler.run_bind_ok.mp hRun
      obtain ⟨-, rfl⟩ := Handler.run_pure_ok.mp hRun
      exact refresh_account hValid hApart hFar hRefresh
    | logout refreshToken accessToken =>
      obtain ⟨⟨⟩, m, hLogout, hRun⟩ := Handler.run_bind_ok.mp hRun
      obtain ⟨-, rfl⟩ := Handler.run_pure_ok.mp hRun
      exact logout_account hValid hApart hFar hLogout
    | resetPassword =>
      obtain ⟨⟨⟩, m, hReset, hRun⟩ := Handler.run_bind_ok.mp hRun
      obtain ⟨-, rfl⟩ := Handler.run_pure_ok.mp hRun
      exact resetPassword_account hApart hFar hReset
    | oauthCallback =>
      simp only [handle, Router.oauthCallback, Handler.run_ensure_bind_ok] at hRun
      obtain ⟨result, m, hResolve, hRun⟩ := Handler.run_bind_ok.mp hRun.2
      obtain ⟨-, rfl⟩ := Handler.run_pure_ok.mp hRun
      exact oauthCallback_account hHas hApart hFar hResolve
    | oauthLinkConfirm =>
      obtain ⟨tokens, m, hConfirm, hRun⟩ := Handler.run_bind_ok.mp hRun
      obtain ⟨-, rfl⟩ := Handler.run_pure_ok.mp hRun
      exact oauthLinkConfirm_account hApart hFar hConfirm
    | mfaEnroll | mfaConfirm | mfaDisable | patchMe | changePassword | revokeSession
    | revokeAllSessions =>
      exact onSelf_account hValid hTied rfl hFar hRun
    | toggleMfaEnforcement => exact toggleMfaEnforcement_account hApart hFar hRun
    | adminLogin email password ip =>
      simp only [handle, Router.adminLogin, Handler.run_ensure_bind_ok] at hRun
      obtain ⟨tokens, m, hLogin, hRun⟩ := Handler.run_bind_ok.mp hRun.2
      obtain ⟨-, rfl⟩ := Handler.run_pure_ok.mp hRun
      exact adminLogin_account hApart hFar hLogin
    | adminRefresh token =>
      obtain ⟨tokens, m, hRefresh, hRun⟩ := Handler.run_bind_ok.mp hRun
      obtain ⟨-, rfl⟩ := Handler.run_pure_ok.mp hRun
      exact adminRefresh_account hValid hApart hFar hRefresh
    | adminLogout => exact adminLogout_account hValid hApart hFar hRun
    | suspendTenant => exact suspendTenant_account hApart hFar hRun
    | forcePasswordReset => exact forcePasswordReset_account hApart hFar hRun
    | stripeEvent =>
      obtain ⟨⟨⟩, m, hProcess, hRun⟩ := Handler.run_bind_ok.mp hRun
      obtain ⟨-, rfl⟩ := Handler.run_pure_ok.mp hRun
      exact processStripeEvent_account hApart hFar hProcess
    | _ => simp [Request.parts, Account.parts] at hQuiet

end Requests

/-! ### Runs -/

section Runs

variable {cfg : Config} {s s' : Sys} {e : Event} {steps : List (Sys × Event)} {id : Uuid}

/-- The request has committed, and reaches the account. -/
def Touched (cfg : Config) (id : Uuid) (p : Sys × Event) : Prop :=
  (∃ response, p.2.outcome = .ok response) ∧ Reaches (p.2.ctx cfg) p.1.world id p.2.request

theorem Step.account (hs : s.Sound cfg) (hTied : s.world.db.SessionsTied)
    (hHas : s.world.db.HasUser id) (h : Step cfg s e s') (hFar : ¬Touched cfg id (s, e)) :
    s'.world.db.account id = s.world.db.account id := by
  cases hOutcome : e.outcome with
  | ok response =>
    exact handle_account hs.valid hTied hHas (fun hReaches => hFar ⟨⟨response, hOutcome⟩, hReaches⟩)
      (h.committed hOutcome).1
  | error => rw [h.rolledBack hOutcome]

theorem Step.hasUser (hs : s.Sound cfg) (h : Step cfg s e s') (hHas : s.world.db.HasUser id) :
    s'.world.db.HasUser id := (h.evolves hs).users.hasUser hs.valid hHas

/-- A run of which no committed request reaches an account leaves the account as it was: its row,
its tokens and sessions, its sign-ins and its second factors. -/
theorem accounts_isolated (hReach : Reachable cfg s) (hRun : Run (Step cfg) s steps s')
    (hHas : s.world.db.HasUser id) (hFar : ∀ p ∈ steps, ¬Touched cfg id p) :
    s'.world.db.account id = s.world.db.account id := by
  have hKept := hRun.invariant_of
    (I := fun m => m.Sound cfg ∧ m.world.db.SessionsTied ∧ m.world.db.HasUser id ∧
      m.world.db.account id = s.world.db.account id)
    (C := fun m e => ¬Touched cfg id (m, e))
    (fun ⟨hs, hTied, hHas, hSame⟩ hFar hStep => ⟨hStep.sound hs, hStep.sessionsTied hTied,
      hStep.hasUser hs hHas, (hStep.account hs hTied hHas hFar).trans hSame⟩)
    ⟨hReach.sound, hReach.sessionsTied, hHas, rfl⟩ hFar
  exact hKept.2.2.2

end Runs

/-- Alice signs in and makes Bob a viewer, and Bob's account stays. -/
theorem accounts_isolated_demotion :
    bobDemoted.2.world.db.account ⟨2⟩ = teamStart.world.db.account ⟨2⟩ := by
  refine accounts_isolated teamStart_initial.reachable demotion_run ⟨bob, by decide, rfl⟩ ?_
  intro p hp
  rintro ⟨-, hReaches⟩
  rcases List.mem_cons.mp hp with rfl | hp
  · cases hReaches with
    | signedIn presents => cases presents
    | password presents found is =>
      obtain ⟨rfl, rfl⟩ := Prod.mk.inj (Option.some.inj presents)
      cases found
      cases is
    | refreshToken presents => cases presents
  · obtain rfl := List.mem_singleton.mp hp
    cases hReaches with
    | signedIn presents | password presents | refreshToken presents => cases presents

end WxcodeAdm
