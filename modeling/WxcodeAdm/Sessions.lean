import WxcodeAdm.Footprint
import WxcodeAdm.Lib.Preserves

/-! The tables of refresh tokens and sessions, and the five writes to them: whatever these keep,
every request keeps. -/

namespace WxcodeAdm

open Lib

variable {c : Ctx} {s s' : World}

/-- What `admin_refresh` makes of the tables. -/
def Db.replaceToken (c : Ctx) (row : RefreshToken) (db : Db) : Db :=
  (db.deleteRefreshTokens fun r => r.id = row.id).addRefreshToken (newRefreshToken c row.userId)

/-- What `refresh` makes of them: the session of the consumed row is gone by the time it is looked
up. -/
def rotated (c : Ctx) (row : RefreshToken) (userAgent ipAddress : Option String) (db : Db) : Db :=
  (db.replaceToken c row).addSession (newSession c row.userId c.draws.jti userAgent ipAddress)

/-- No session of a consumed row is left. -/
theorem sessionOf_replaceToken {row : RefreshToken} {db : Db} (hMem : row ∈ db.refreshTokens) :
    (db.replaceToken c row).sessions.find? (fun x => x.refreshTokenId = row.id) = none := by
  refine List.find?_eq_none.mpr fun x hx hSession => ?_
  obtain ⟨-, hKept⟩ := List.mem_filter.mp hx
  simp only [Bool.not_eq_true', List.any_eq_false] at hKept
  refine hKept row hMem ?_
  simpa using (of_decide_eq_true hSession).symm

theorem rotate_db {row : RefreshToken} {ua ip : Option String} {t : TokenResponse}
    (hMem : row ∈ s.db.refreshTokens) (h : (rotate c row ua ip).run s = .ok t s') :
    s'.db = rotated c row ua ip s.db := by
  simp only [rotate, writeShadowKey, decodeAccessToken, Handler.run_store_bind,
    Handler.run_exec_bind, Handler.run_query_bind, Handler.run_orRaise_bind_ok,
    Handler.run_ofExcept_bind_ok, decodeFor_ok, Bearer.signed.injEq] at h
  obtain ⟨user, -, p, ⟨rfl, -, -⟩, h⟩ := h
  obtain ⟨_, m, hSession, h⟩ := Handler.run_bind_ok.mp h
  obtain ⟨-, rfl⟩ := Handler.run_pure_ok.mp h
  have hNone : ((s.db.deleteRefreshTokens fun r => r.id = row.id).addRefreshToken
      (newRefreshToken c row.userId)).sessions.find? (fun x => x.refreshTokenId = row.id) = none :=
    sessionOf_replaceToken hMem
  simp only [continueSession, Handler.run_query_bind, hNone, Handler.run_exec, Outcome.ok.injEq,
    true_and] at hSession
  rw [← hSession]
  rfl

theorem Db.refreshToken_mem_tokens {db : Db} {token : String} {row : RefreshToken}
    (h : db.refreshToken token = some row) : row ∈ db.refreshTokens :=
  List.mem_of_find?_eq_some h

/-- An assertion about the two tables that each of the writes keeps. -/
structure TokenRules (c : Ctx) (P : Db → Prop) : Prop where
  same : ∀ {db db' : Db}, db'.refreshTokens = db.refreshTokens → db'.sessions = db.sessions →
    P db → P db'
  delete : ∀ {db : Db} p, P db → P (db.deleteRefreshTokens p)
  issue : ∀ {db : Db} userId ua ip, P db → P (issued c userId ua ip db)
  rotate : ∀ {db : Db} {row : RefreshToken} ua ip, row ∈ db.refreshTokens → P db →
    P (rotated c row ua ip db)
  replace : ∀ {db : Db} {row : RefreshToken}, row ∈ db.refreshTokens → P db →
    P (db.replaceToken c row)

namespace TokenRules

variable {P : Db → Prop}

/-! ### Tokens -/

/-- A handler that touches neither table. -/
theorem quiet {α : Type} {parts : List Part} {h : App α} (hP : TokenRules c P)
    (ht : Touches parts h) (hTokens : Part.refreshTokens ∉ parts)
    (hSessions : Part.sessions ∉ parts) : Handler.Preserves P h := fun _ _ _ hRun =>
  hP.same ((ht .refreshTokens hTokens).of_ok hRun) ((ht .sessions hSessions).of_ok hRun)

theorem delete_keeps (hP : TokenRules c P) (p : Db → RefreshToken → Bool) :
    Handler.Preserves P (.exec fun db => db.deleteRefreshTokens (p db) : App Unit) :=
  .exec fun _ => hP.delete _

theorem issueTokens_keeps (hP : TokenRules c P) (user : User) (ua ip : Option String) :
    Handler.Preserves P (issueTokens c user ua ip) := fun _ _ _ hRun hBefore => by
  rw [(issueTokens_ok hRun).2]
  exact hP.issue _ _ _ hBefore

theorem refresh_keeps (hP : TokenRules c P) (token : String) (ua ip : Option String) :
    Handler.Preserves P (refresh c token ua ip) := fun _ _ _ hRun hBefore => by
  obtain ⟨row, hRow, -, hRotate⟩ := refresh_ok hRun
  have hMem := Db.refreshToken_mem_tokens hRow
  rw [rotate_db hMem hRotate]
  exact hP.rotate _ _ hMem hBefore

theorem adminRefresh_keeps (hP : TokenRules c P) (token : String) :
    Handler.Preserves P (adminRefresh c token) := fun _ _ _ hRun hBefore => by
  obtain ⟨row, hRow, -, -, hDb⟩ := adminRefresh_ok hRun
  rw [hDb]
  exact hP.replace (Db.refreshToken_mem_tokens hRow) hBefore

theorem deleteIfFound_keeps (hP : TokenRules c P) (token : String) :
    Handler.Preserves P (deleteIfFound token) :=
  .bind (.query _) fun found => by
    cases found with
    | some row => exact hP.delete_keeps fun _ _ => _
    | none => exact .pure _

theorem revokeSessionsOf_keeps (hP : TokenRules c P) (userIds : List Uuid) :
    Handler.Preserves P (revokeSessionsOf c userIds) := fun s _ _ hRun hBefore => by
  rw [run_revokeSessionsOf] at hRun
  cases hRun
  exact hP.delete _ hBefore

theorem revokeOtherSessions_keeps (hP : TokenRules c P) (userId : Uuid) (jti : Option Uuid) :
    Handler.Preserves P (revokeOtherSessions c userId jti) := fun s _ _ hRun hBefore => by
  rw [run_revokeOtherSessions] at hRun
  cases hRun
  exact hP.delete _ hBefore

/-! ### Sign-in -/

theorem loginVerified_keeps (hP : TokenRules c P) (user : User) (device ua ip : Option String) :
    Handler.Preserves P (loginVerified c user device ua ip) :=
  .bind (.query _) fun _ =>
    .ite (.bind (hP.quiet (createMfaPending_touches _) (by simp) (by simp)) fun _ => .pure _) <|
    .ite
      (.bind (hP.quiet (skipMfa_touches _ _ _) (by simp) (by simp)) fun _ => .ite
        (.bind (hP.issueTokens_keeps _ _ _) fun _ => .pure _)
        (.bind (hP.quiet (createMfaPending_touches _) (by simp) (by simp)) fun _ => .pure _))
      (.bind (hP.issueTokens_keeps _ _ _) fun _ => .pure _)

theorem login_keeps (hP : TokenRules c P) (email : String) (password : PyStr)
    (device ua ip : Option String) : Handler.Preserves P (login c email password device ua ip) :=
  .bind (.query _) fun _ => .bind (.orRaise _ _) fun _ => .bind (.ensure _ _) fun _ =>
    .bind (.ofExcept _) fun _ => .bind (.ensure _ _) fun _ => .bind (.ensure _ _) fun _ =>
    hP.loginVerified_keeps _ _ _ _

theorem mfaVerify_keeps (hP : TokenRules c P) (body : MfaVerifyRequest) (ua ip : Option String) :
    Handler.Preserves P (mfaVerify c body ua ip) :=
  .bind (.lookup _) fun _ => .bind (.orRaise _ _) fun _ => .bind (.ofExcept _) fun _ =>
    .bind (.query _) fun _ => .bind (.orRaise _ _) fun _ => .bind (.ensure _ _) fun _ =>
    .bind (.lookup _) fun _ => .bind (.ensure _ _) fun _ =>
    .bind (hP.quiet (verifySecondFactor_touches _ _) (by simp) (by simp)) fun _ =>
    .bind (hP.quiet touches_mfaPending (by simp) (by simp)) fun _ =>
    .bind (hP.issueTokens_keeps _ _ _) fun _ =>
    .bind (hP.quiet (redirectToWxcode_touches _ _) (by simp) (by simp)) fun _ => .ite
      (.bind (hP.quiet (createTrustedDevice_touches _) (by simp) (by simp)) fun _ => .pure _)
      (.pure _)

theorem resolveOauthAccount_keeps (hP : TokenRules c P) (provider email puid : String)
    (ua ip : Option String) : Handler.Preserves P (resolveOauthAccount c provider email puid ua ip) :=
  .bind (.query _) fun account => by
    cases account with
    | some account =>
      exact .bind (.query _) fun _ => .bind (.orRaise _ _) fun _ =>
        .bind (hP.issueTokens_keeps _ _ _) fun _ => .bind (.query _) fun _ => .pure _
    | none =>
      refine .bind (.query _) fun user => ?_
      cases user with
      | some _ =>
        exact .ite (.bind (hP.quiet touches_oauthLink (by simp) (by simp)) fun _ => .pure _)
          (.throw _)
      | none =>
        exact .bind (hP.quiet (touches_addUser _) (by simp) (by simp)) fun _ =>
          .bind (hP.quiet touches_flush (by simp) (by simp)) fun _ =>
          .bind (hP.quiet (addOAuthAccount_touches _) (by simp) (by simp)) fun _ =>
          .bind (hP.quiet (createVerificationCode_touches _) (by simp) (by simp)) fun _ =>
          .bind (hP.quiet (touches_enqueueJob _) (by simp) (by simp)) fun _ => .bind (.query _)
          fun _ => .bind (hP.issueTokens_keeps _ _ _) fun _ => .pure _

theorem confirmOauthLink_keeps (hP : TokenRules c P) (linkToken password : PyStr)
    (ua ip : Option String) : Handler.Preserves P (confirmOauthLink c linkToken password ua ip) :=
  .bind (.lookup _) fun _ => .bind (.orRaise _ _) fun _ => .bind (.query _) fun _ =>
    .bind (.orRaise _ _) fun _ => .bind (.ofExcept _) fun _ => .bind (.ensure _ _) fun _ =>
    .bind (hP.quiet touches_oauthLink (by simp) (by simp)) fun _ =>
    .bind (hP.quiet (addOAuthAccount_touches _) (by simp) (by simp)) fun _ =>
    hP.issueTokens_keeps _ _ _

/-! ### Revocation -/

theorem resetPassword_keeps (hP : TokenRules c P) (token : TimedToken Json) (new : String) :
    Handler.Preserves P (resetPassword c token new) :=
  .bind (.ofExcept _) fun _ => .bind (.query _) fun _ => .bind (.orRaise _ _) fun _ =>
    .bind (.bind (.ofExcept _) fun _ => .pure _) fun _ =>
    .bind (hP.quiet touches_users (by simp) (by simp)) fun _ => hP.delete_keeps fun _ _ => _

theorem changePassword_keeps (hP : TokenRules c P) (user : User) (current new : String)
    (jti : Option Uuid) : Handler.Preserves P (changePassword c user current new jti) :=
  .bind (.ensure _ _) fun _ => .bind (.ofExcept _) fun _ => .bind (.ensure _ _) fun _ =>
    .bind (hP.quiet touches_users (by simp) (by simp)) fun _ =>
    .bind (hP.revokeOtherSessions_keeps _ _) fun _ => .pure _

theorem revokeSession_keeps (hP : TokenRules c P) (user : User) (sessionId : String)
    (jti : Uuid) : Handler.Preserves P (revokeSession c user sessionId jti) :=
  .bind (.orRaise _ _) fun _ => .bind (.query _) fun _ => .bind (.orRaise _ _) fun _ =>
    .bind (.ensure _ _) fun _ => .bind (.store _) fun _ => hP.delete_keeps fun _ _ => _

theorem setMfaEnforcement_keeps (hP : TokenRules c P) (tenant : Tenant) (actor : User)
    (enforce : Bool) : Handler.Preserves P (Router.setMfaEnforcement tenant actor enforce) :=
  .ite (.bind (.ensure _ _) fun _ => .bind (hP.quiet touches_tenants (by simp) (by simp)) fun _ =>
    .bind (.query _) fun _ => hP.delete_keeps fun _ _ => _)
    (hP.quiet touches_tenants (by simp) (by simp))

theorem handlePaymentFailed_keeps (hP : TokenRules c P) (dataObject : Json) :
    Handler.Preserves P (handlePaymentFailed c dataObject) :=
  .bind (hP.quiet (invoiceSubscription_touches dataObject) (by simp) (by simp)) fun found => by
    cases found with
    | none => exact .pure _
    | some _ =>
      exact .bind (hP.quiet touches_subscriptions (by simp) (by simp)) fun _ => .bind (.query _)
        fun _ => .bind (hP.revokeSessionsOf_keeps _) fun _ => .bind (.query _) fun _ =>
        .bind (.query _) fun _ =>
        hP.quiet (.forM (fun _ => touches_enqueueJob _) _) (by simp) (by simp)

theorem processStripeEvent_keeps (hP : TokenRules c P) (eventId eventType : String)
    (dataObject : Json) : Handler.Preserves P (processStripeEvent c eventId eventType dataObject) :=
  .bind (.query _) fun found => by
    cases found with
    | some _ => exact .pure _
    | none =>
      refine .bind ?_ fun _ => .bind (hP.quiet touches_webhookEvents (by simp) (by simp)) fun _ =>
        hP.quiet touches_flush (by simp) (by simp)
      unfold handleStripeEvent
      split
      · exact hP.quiet (handleCheckoutCompleted_touches dataObject) (by simp) (by simp)
      · exact hP.quiet (handleSubscriptionUpdated_touches dataObject) (by simp) (by simp)
      · exact hP.quiet (handleSubscriptionDeleted_touches dataObject) (by simp) (by simp)
      · exact hP.quiet (handleInvoicePaid_touches dataObject) (by simp) (by simp)
      · exact hP.handlePaymentFailed_keeps dataObject
      · exact .pure _

/-! ### Requests -/

theorem signedIn_keeps {α : Type} (hP : TokenRules c P) (token : Bearer)
    {k : User → Uuid → App α} (hk : ∀ user jti, Handler.Preserves P (k user jti)) :
    Handler.Preserves P (do
      let user ← requireVerified c token
      let jti ← getCurrentJti c token
      k user jti) :=
  .bind (hP.quiet (requireVerified_touches token) (by simp) (by simp)) fun user =>
    .bind (.bind (.ofExcept _) fun _ => .pure _) fun jti => hk user jti

theorem asAdmin_keeps {α : Type} (hP : TokenRules c P) (token : Bearer) {k : PUnit → App α}
    (hk : ∀ a, Handler.Preserves P (k a)) :
    Handler.Preserves P (discard (requireAdmin c token) >>= k) :=
  .bind (.bind (hP.quiet (requireAdmin_touches token) (by simp) (by simp)) fun _ => .pure _) hk

/-- Every request but an admin login, which adds a token to those that the user has. -/
theorem handle_keeps (hP : TokenRules c P) {r : Request}
    (hAdmin : ∀ email password ip, r ≠ .adminLogin email password ip) :
    Handler.Preserves P (handle c r) := by
  by_cases hQuiet : Part.refreshTokens ∉ r.parts ∧ Part.sessions ∉ r.parts
  · exact hP.quiet (handle_touches r) hQuiet.1 hQuiet.2
  · cases r with
    | login =>
      exact .bind (hP.login_keeps _ _ _ _ _) fun _ => .bind (.query _) fun _ =>
        hP.quiet (loginResponse_touches _ _) (by simp) (by simp)
    | mfaVerify => exact .bind (hP.mfaVerify_keeps _ _ _) fun _ => .pure _
    | refresh => exact .bind (hP.refresh_keeps _ _ _) fun _ => .pure _
    | logout refreshToken accessToken =>
      refine .bind (.bind (hP.deleteIfFound_keeps _) fun _ => ?_) fun _ => .pure _
      cases accessToken with
      | some token => exact hP.quiet (blacklistAccessToken_touches token) (by simp) (by simp)
      | none => exact .pure _
    | resetPassword => exact .bind (hP.resetPassword_keeps _ _) fun _ => .pure _
    | oauthCallback =>
      exact .bind (.ensure _ _) fun _ => .bind (hP.resolveOauthAccount_keeps _ _ _ _ _) fun _ =>
        .pure _
    | oauthLinkConfirm => exact .bind (hP.confirmOauthLink_keeps _ _ _ _) fun _ => .pure _
    | changePassword =>
      exact hP.signedIn_keeps _ fun _ _ => .bind (hP.changePassword_keeps _ _ _ _) fun _ => .pure _
    | revokeSession =>
      exact hP.signedIn_keeps _ fun _ _ => .bind (hP.revokeSession_keeps _ _ _) fun _ => .pure _
    | revokeAllSessions =>
      exact hP.signedIn_keeps _ fun _ _ => .bind (hP.revokeOtherSessions_keeps _ _) fun _ => .pure _
    | toggleMfaEnforcement =>
      exact .bind (hP.quiet (requireRole_touches _ _ _) (by simp) (by simp)) fun _ =>
        .bind (.query _) fun _ => .bind (.orRaise _ _) fun _ =>
        .bind (hP.setMfaEnforcement_keeps _ _ _) fun _ => .pure _
    | adminLogin email password ip => exact absurd rfl (hAdmin email password ip)
    | adminRefresh => exact .bind (hP.adminRefresh_keeps _) fun _ => .pure _
    | adminLogout =>
      exact hP.asAdmin_keeps _ fun _ => .bind (.ofExcept _) fun _ =>
        .bind (.bind (hP.deleteIfFound_keeps _) fun _ => .store _) fun _ => .pure _
    | suspendTenant =>
      exact hP.asAdmin_keeps _ fun _ => .bind (.bind (hP.quiet (changeTenant_touches _ _ _ _)
        (by simp) (by simp)) fun _ => .bind (.query _) fun _ => hP.revokeSessionsOf_keeps _)
        fun _ => .pure _
    | forcePasswordReset =>
      exact hP.asAdmin_keeps _ fun _ => .bind (.bind (.query _) fun _ => .bind (.orRaise _ _)
        fun _ => .bind (hP.quiet touches_users (by simp) (by simp)) fun _ =>
        .bind (hP.revokeSessionsOf_keeps _) fun _ =>
        .bind (hP.quiet touches_flush (by simp) (by simp)) fun _ =>
        hP.quiet (touches_enqueueJob _) (by simp) (by simp)) fun _ => .pure _
    | stripeEvent => exact .bind (hP.processStripeEvent_keeps _ _ _) fun _ => .pure _
    | _ => simp [Request.parts] at hQuiet

end TokenRules

end WxcodeAdm
