import WxcodeAdm.Auth.Mfa

/-! Sign-in through Google or GitHub in `auth/service.py`. -/

namespace WxcodeAdm

open Lib

variable (c : Ctx)

/-- What `resolve_oauth_account` returns: `OAuthCallbackResponse` or `OAuthLinkResponse`. -/
inductive OAuthResult where
  | callback (tokens : TokenResponse) (isNewUser needsOnboarding : Bool)
  | link (linkToken email provider : String)
  deriving DecidableEq, Repr

def addOAuthAccount (account : OAuthAccount) : App Unit := do
  .exec fun db => { db with oauthAccounts := db.oauthAccounts ++ [account] }
  flush

/-- Case 1: the account is known, and its user is logged in. -/
def oauthLogin (account : OAuthAccount) (userAgent ipAddress : Option String) :
    App OAuthResult := do
  let found ← .query fun db => db.user account.userId
  let user ← .orRaise found (.other "NoResultFound")
  let tokens ← issueTokens c user userAgent ipAddress
  let needsOnboarding ← .query fun db => !db.memberships.any fun m => m.userId = user.id
  return .callback tokens false needsOnboarding

/-- Case 2: the address belongs to an account with a password, which has to be confirmed. -/
def oauthLinkRequired (user : User) (provider email providerUserId : String) :
    App OAuthResult := do
  .store fun r => { r with
    oauthLink := r.oauthLink.set c.now c.draws.linkToken
      { userId := user.id, provider, providerUserId } (seconds c.settings.mfaPendingTtlSeconds) }
  return .link c.draws.linkToken email provider

/-- Case 4: a new user. -/
def oauthSignup (provider email providerUserId : String) (userAgent ipAddress : Option String) :
    App OAuthResult := do
  let user : User := { id := c.draws.userId, email, passwordHash := none }
  .exec fun db => { db with users := db.users ++ [user] }
  flush
  addOAuthAccount { userId := user.id, provider, providerUserId }
  let code ← createVerificationCode c user.id
  enqueueJob (.sendVerificationEmail user.id user.email code)
  let needsOnboarding ← .query fun db =>
    !db.invitations.any fun i => i.email = email ∧ i.acceptedAt = none
  let tokens ← issueTokens c user userAgent ipAddress
  return .callback tokens true needsOnboarding

def resolveOauthAccount (provider email providerUserId : String)
    (userAgent ipAddress : Option String) : App OAuthResult := do
  match ← .query fun db => db.oauthAccounts.find? fun a => a.provider = provider ∧
    a.providerUserId = providerUserId with
  | some account => oauthLogin c account userAgent ipAddress
  | none =>
    match ← .query fun db => db.userByEmail email with
    | some user =>
      if user.passwordHash.isSome then oauthLinkRequired c user provider email providerUserId
      else .throw .oauthProviderAlreadyLinked
    | none => oauthSignup c provider email providerUserId userAgent ipAddress

def confirmOauthLink (linkToken password : PyStr) (userAgent ipAddress : Option String) :
    App TokenResponse := do
  let raw ← .lookup fun r => r.oauthLink.get c.now linkToken
  let link ← .orRaise raw (unknownToken linkToken)
  let found ← .query fun db => db.user link.userId
  let user ← .orRaise found .invalidToken
  let valid ← .ofExcept (verifyPassword c password user.passwordHash)
  .ensure (valid = true) .invalidCredentials
  .store fun r => { r with oauthLink := r.oauthLink.del linkToken }
  addOAuthAccount
    { userId := user.id, provider := link.provider, providerUserId := link.providerUserId }
  issueTokens c user userAgent ipAddress

variable {c}

/-- A sign-in that makes a user makes an account and issues tokens for someone who was not there. -/
theorem oauthSignup_ok {provider email puid : String} {ua ip : Option String} {result : OAuthResult}
    {s s' : World} (h : (oauthSignup c provider email puid ua ip).run s = .ok result s') :
    ¬s.db.HasUser c.draws.userId ∧ ∃ t onboard m, result = .callback t true onboard ∧
      m.db.memberships = s.db.memberships ∧
      m.db.oauthAccounts = s.db.oauthAccounts ++ [⟨c.draws.userId, provider, puid⟩] ∧
      (issueTokens c { id := c.draws.userId, email, passwordHash := none } ua ip).run m =
        .ok t s' := by
  simp only [oauthSignup, addOAuthAccount, createVerificationCode, enqueueJob, bind_assoc,
    pure_bind, Handler.run_exec_bind, run_flush_bind_ok, Handler.run_store_bind,
    Handler.run_query_bind] at h
  obtain ⟨hUsers, -, h⟩ := h
  obtain ⟨t, m, hIssue, h⟩ := Handler.run_bind_ok.mp h
  obtain ⟨rfl, rfl⟩ := Handler.run_pure_ok.mp h
  refine ⟨?_, t, _, _, rfl, ?_, ?_, hIssue⟩
  · rintro ⟨u, hu, hId⟩
    have hNodup := hUsers.userId
    simp only [List.map_append, List.map_cons, List.map_nil, List.nodup_append] at hNodup
    exact hNodup.2.2 u.id (List.mem_map.mpr ⟨u, hu, rfl⟩) _ (List.mem_singleton.mpr rfl) hId
  · rfl
  · rfl

/-- A callback issues tokens to the user of the account, or to a new user. -/
theorem resolveOauthAccount_ok {provider email puid : String} {ua ip : Option String}
    {t : TokenResponse} {isNew onboard : Bool} {s s' : World}
    (h : (resolveOauthAccount c provider email puid ua ip).run s =
      .ok (.callback t isNew onboard) s') :
    (∃ account, (s.db.oauthAccounts.find? fun a => a.provider = provider ∧
          a.providerUserId = puid) = some account ∧
        (oauthLogin c account ua ip).run s = .ok (.callback t isNew onboard) s') ∨
      ((s.db.oauthAccounts.find? fun a => a.provider = provider ∧ a.providerUserId = puid) = none ∧
        (oauthSignup c provider email puid ua ip).run s = .ok (.callback t isNew onboard) s') := by
  simp only [resolveOauthAccount, Handler.run_query_bind] at h
  split at h
  · rename_i account hAccount
    exact .inl ⟨account, hAccount, h⟩
  · rename_i hAccount
    refine .inr ⟨hAccount, ?_⟩
    rw [Handler.run_query_bind] at h
    split at h
    · simp only [Handler.run_ite_ok, Handler.run_throw_ok, and_false, or_false, oauthLinkRequired,
        Handler.run_store_bind, Handler.run_pure_ok] at h
      obtain ⟨-, hResult, -⟩ := h
      cases hResult
    · exact h

theorem oauthLogin_ok {account : OAuthAccount} {ua ip : Option String} {t : TokenResponse}
    {isNew onboard : Bool} {s s' : World}
    (h : (oauthLogin c account ua ip).run s = .ok (.callback t isNew onboard) s') :
    ∃ user m, s.db.user account.userId = some user ∧
      (issueTokens c user ua ip).run s = .ok t m := by
  simp only [oauthLogin, Handler.run_query_bind, Handler.run_orRaise_bind_ok] at h
  obtain ⟨user, hUser, h⟩ := h
  obtain ⟨t', m, hIssue, h⟩ := Handler.run_bind_ok.mp h
  simp only [Handler.run_query_bind, Handler.run_pure_ok] at h
  obtain ⟨rfl, -, -⟩ := OAuthResult.callback.inj h.1
  exact ⟨user, m, hUser, hIssue⟩

/-! ### Evolution -/

variable {P : Power → Prop}

theorem addOAuthAccount_evolves (account : OAuthAccount) :
    Handler.Within (Evolves c P) (addOAuthAccount account) :=
  .bind (Evolves.exec_frame fun _ => rfl) fun _ => Evolves.flush

theorem oauthLogin_evolves (h : P .issue) (account : OAuthAccount) (ua ip : Option String) :
    Handler.Within (Evolves c P) (oauthLogin c account ua ip) :=
  .bind (.query _) fun _ => .bind (.orRaise _ _) fun _ => .bind (issueTokens_evolves h _ _ _)
    fun _ => .bind (.query _) fun _ => .pure _

theorem oauthSignup_evolves (h : P .issue) (provider email puid : String)
    (ua ip : Option String) :
    Handler.Within (Evolves c P) (oauthSignup c provider email puid ua ip) :=
  .bind (addUser_evolves _) fun _ => .bind Evolves.flush fun _ =>
    .bind (addOAuthAccount_evolves _) fun _ => .bind (createVerificationCode_evolves _) fun _ =>
    .bind (Evolves.enqueueJob _) fun _ => .bind (.query _) fun _ =>
    .bind (issueTokens_evolves h _ _ _) fun _ => .pure _

theorem resolveOauthAccount_evolves (h : P .issue) (provider email puid : String)
    (ua ip : Option String) :
    Handler.Within (Evolves c P) (resolveOauthAccount c provider email puid ua ip) :=
  .bind (.query _) fun account => by
    cases account with
    | some account => exact oauthLogin_evolves h account ua ip
    | none =>
      refine .bind (.query _) fun user => ?_
      cases user with
      | some _ =>
        exact .ite (.bind (Evolves.store_frame fun _ => rfl) fun _ => .pure _) (.throw _)
      | none => exact oauthSignup_evolves h provider email puid ua ip

theorem confirmOauthLink_evolves (h : P .issue) (linkToken password : PyStr)
    (ua ip : Option String) :
    Handler.Within (Evolves c P) (confirmOauthLink c linkToken password ua ip) :=
  .bind (.lookup _) fun _ => .bind (.orRaise _ _) fun _ => .bind (.query _) fun _ =>
    .bind (.orRaise _ _) fun _ => .bind (.ofExcept _) fun _ => .bind (.ensure _ _) fun _ =>
    .bind (Evolves.store_frame fun _ => rfl) fun _ => .bind (addOAuthAccount_evolves _) fun _ =>
    issueTokens_evolves h _ _ _

/-! ### What a sign-in issues -/

/-- A sign-in issues a pair unless a password is asked for. -/
def OAuthResult.issued : OAuthResult → Option TokenResponse
  | .callback t _ _ => some t
  | .link .. => none

theorem oauthSignup_issues (provider email puid : String) (ua ip : Option String) :
    Issues c "wxcode-adm" OAuthResult.issued (oauthSignup c provider email puid ua ip) :=
  .bind_quiet (addUser_evolves _) fun _ => .bind_quiet Evolves.flush fun _ =>
    .bind_quiet (addOAuthAccount_evolves _) fun _ =>
    .bind_quiet (createVerificationCode_evolves _) fun _ =>
    .bind_quiet (Evolves.enqueueJob _) fun _ => .bind_quiet (.query _) fun _ =>
    .bind_issue (issueTokens_issues _ _ _) fun _ => .pure rfl

theorem resolveOauthAccount_issues (provider email puid : String) (ua ip : Option String) :
    Issues c "wxcode-adm" OAuthResult.issued
      (resolveOauthAccount c provider email puid ua ip) :=
  .bind_quiet (.query _) fun account => by
    cases account with
    | some account =>
      exact .bind_quiet (.query _) fun _ => .bind_quiet (.orRaise _ _) fun _ =>
        .bind_issue (issueTokens_issues _ _ _) fun _ => .bind (.query _) fun _ => .pure rfl
    | none =>
      refine .bind_quiet (.query _) fun user => ?_
      cases user with
      | some _ =>
        exact .ite (.of_yields (.bind (.store fun _ => rfl) fun _ => .pure rfl)) (.throw _)
      | none => exact oauthSignup_issues provider email puid ua ip

theorem confirmOauthLink_issues (linkToken password : PyStr) (ua ip : Option String) :
    Issues c "wxcode-adm" some (confirmOauthLink c linkToken password ua ip) :=
  .bind_quiet (.lookup _) fun _ => .bind_quiet (.orRaise _ _) fun _ => .bind_quiet (.query _)
    fun _ => .bind_quiet (.orRaise _ _) fun _ => .bind_quiet (.ofExcept _) fun _ =>
    .bind_quiet (.ensure _ _) fun _ => .bind_quiet (Evolves.store_frame fun _ => rfl) fun _ =>
    .bind_quiet (addOAuthAccount_evolves _) fun _ => issueTokens_issues _ _ _

end WxcodeAdm
