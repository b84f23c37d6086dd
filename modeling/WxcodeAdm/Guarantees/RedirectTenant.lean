import WxcodeAdm.Footprint

/-! The tenant that a new access token names, and the tenant whose application a login is sent to.
`_build_regular_access_claims` looks for a membership in the last used tenant, and
`get_redirect_url` for the URL of that tenant, whoever its members are. -/

namespace WxcodeAdm

open Lib

variable {c : Ctx} {w w' : World} {t : TokenResponse}

/-! ### The claims of a new token -/

theorem latestMembership_congr {db db' : Db} (h : db'.memberships = db.memberships)
    (userId : Uuid) : db'.latestMembership userId = db.latestMembership userId := by
  simp only [Db.latestMembership, h]

theorem latestMembership_mem {db : Db} {userId : Uuid} {m : TenantMembership}
    (h : db.latestMembership userId = some m) : m ∈ db.memberships ∧ m.userId = userId := by
  have hFold : ∀ best ∈ db.latestMembership userId,
      best ∈ db.memberships.filter fun m => m.userId = userId := by
    refine List.foldlRecOn (motive := fun best : Option TenantMembership => ∀ b ∈ best,
      b ∈ db.memberships.filter fun m => m.userId = userId) _ _ ?_ ?_
    · intro b hb
      cases hb
    · intro best hBest a ha b hb
      cases best with
      | none => exact Option.some.inj hb ▸ ha
      | some b' =>
        dsimp only at hb
        split at hb
        · exact Option.some.inj hb ▸ ha
        · exact hBest b hb
  simpa using hFold m h

theorem claimsMembership_congr {db db' : Db} (h : db'.memberships = db.memberships)
    (user : User) : claimsMembership user db' = claimsMembership user db := by
  have hFind : db'.membership user.id = db.membership user.id := by
    funext id
    simp only [Db.membership, h]
  simp only [claimsMembership, hFind, latestMembership_congr h]

theorem buildRegularAccessClaims_congr {db db' : Db} (h : db'.memberships = db.memberships)
    (user : User) : buildRegularAccessClaims user db' = buildRegularAccessClaims user db := by
  simp only [buildRegularAccessClaims, claimsMembership_congr h]

/-- The access token that the user gets in this state. -/
def mintedFor (c : Ctx) (user : User) (db : Db) : Payload :=
  createAccessToken c user.id (buildRegularAccessClaims user db)

theorem mintedFor_congr {db db' : Db} (h : db'.memberships = db.memberships) (user : User) :
    mintedFor c user db' = mintedFor c user db := by
  rw [mintedFor, buildRegularAccessClaims_congr h, mintedFor]

/-- The pair holds the access token that the user gets in this state, and it has not expired. -/
structure Minted (c : Ctx) (user : User) (db : Db) (t : TokenResponse) : Prop where
  token : t.accessToken = mintedFor c user db
  live : c.now < seconds t.accessToken.exp

theorem Minted.congr {db db' : Db} {user : User} (h : Minted c user db' t)
    (hMembers : db'.memberships = db.memberships) : Minted c user db t :=
  ⟨h.token.trans (mintedFor_congr hMembers user), h.live⟩

theorem issueTokens_minted {user : User} {ua ip : Option String}
    (h : (issueTokens c user ua ip).run w = .ok t w') : Minted c user w.db t := by
  obtain ⟨rfl, -⟩ := issueTokens_ok h
  exact ⟨rfl, issueTokens_live h⟩

theorem loginVerified_minted {user : User} {device ua ip : Option String}
    (h : (loginVerified c user device ua ip).run w = .ok (.tokens t) w') :
    Minted c user w.db t := by
  simp only [loginVerified, Handler.run_query_bind, Handler.run_ite_ok] at h
  rcases h with ⟨-, h⟩ | ⟨-, ⟨-, h⟩ | ⟨-, h⟩⟩
  · obtain ⟨_, _, -, h⟩ := Handler.run_bind_ok.mp h
    simp at h
  · obtain ⟨trusted, m, hSkip, h⟩ := Handler.run_bind_ok.mp h
    have hSame : m.db.memberships = w.db.memberships :=
      (skipMfa_touches _ _ _ .memberships (by simp)).of_ok hSkip
    simp only [Handler.run_ite_ok] at h
    rcases h with ⟨-, h⟩ | ⟨-, h⟩
    · obtain ⟨t', m', hIssue, h⟩ := Handler.run_bind_ok.mp h
      obtain ⟨hResult, -⟩ := Handler.run_pure_ok.mp h
      obtain rfl := LoginResult.tokens.inj hResult
      exact (issueTokens_minted hIssue).congr hSame
    · obtain ⟨_, _, -, h⟩ := Handler.run_bind_ok.mp h
      simp at h
  · obtain ⟨t', m', hIssue, h⟩ := Handler.run_bind_ok.mp h
    obtain ⟨hResult, -⟩ := Handler.run_pure_ok.mp h
    obtain rfl := LoginResult.tokens.inj hResult
    exact issueTokens_minted hIssue

/-- A login that issues tokens is of an active user with a verified address. -/
theorem login_minted {email : String} {password : PyStr} {device ua ip : Option String}
    (h : (login c email password device ua ip).run w = .ok (.tokens t) w') :
    ∃ user, w.db.userByEmail email = some user ∧ user.isActive = true ∧
      user.emailVerified = true ∧ Minted c user w.db t := by
  simp only [login, Handler.run_query_bind, Handler.run_orRaise_bind_ok,
    Handler.run_ensure_bind_ok, Handler.run_ofExcept_bind_ok] at h
  obtain ⟨user, hFound, hActive, _, -, -, hVerified, h⟩ := h
  exact ⟨user, hFound, hActive, hVerified, loginVerified_minted h⟩

/-- The user of the pending login that an MFA token stands for. -/
def pendingUser (c : Ctx) (w : World) (mfaToken : PyStr) : Option User :=
  ((w.cache.mfaPending.get c.now mfaToken).bind fun pending => (pendingUserId pending).toOption).bind
    w.db.user

/-- What `mfa_verify` does once the second factor was accepted, in a state with the same members and
tenants. -/
theorem mfaVerify_completes {body : MfaVerifyRequest} {ua ip : Option String}
    {result : MfaVerifyResult} (h : (mfaVerify c body ua ip).run w = .ok result w') :
    ∃ user m, pendingUser c w body.mfaToken = some user ∧ user.isActive = true ∧
      m.db.memberships = w.db.memberships ∧ m.db.tenants = w.db.tenants ∧
      (completeMfaLogin c user body ua ip).run m = .ok result w' := by
  simp only [mfaVerify, Handler.run_lookup_bind, Handler.run_orRaise_bind_ok,
    Handler.run_ofExcept_bind_ok, Handler.run_query_bind, Handler.run_ensure_bind_ok] at h
  obtain ⟨pending, hPending, userId, hUserId, user, hUser, hActive, -, h⟩ := h
  obtain ⟨⟨⟩, m, hFactor, h⟩ := Handler.run_bind_ok.mp h
  have hSame (p : Part) (hp : p ∉ [Part.mfaUsed, .backupCodes]) : p.Same w m :=
    (verifySecondFactor_touches _ _ p hp).of_ok hFactor
  refine ⟨user, m, ?_, hActive, hSame .memberships (by simp), hSame .tenants (by simp), h⟩
  simp [pendingUser, hPending, hUserId, Except.toOption, hUser]

theorem completeMfaLogin_minted {user : User} {body : MfaVerifyRequest} {ua ip : Option String}
    {result : MfaVerifyResult} (h : (completeMfaLogin c user body ua ip).run w = .ok result w') :
    Minted c user w.db result.tokens := by
  simp only [completeMfaLogin, Handler.run_store_bind] at h
  obtain ⟨pair, m₁, hIssue, h⟩ := Handler.run_bind_ok.mp h
  obtain ⟨redirect, m₂, -, h⟩ := Handler.run_bind_ok.mp h
  have hMinted : Minted c user w.db pair := (issueTokens_minted hIssue).congr rfl
  simp only [Handler.run_ite_ok] at h
  rcases h with ⟨-, h⟩ | ⟨-, h⟩
  · obtain ⟨_, _, -, h⟩ := Handler.run_bind_ok.mp h
    obtain ⟨rfl, -⟩ := Handler.run_pure_ok.mp h
    exact hMinted
  · obtain ⟨rfl, -⟩ := Handler.run_pure_ok.mp h
    exact hMinted

/-! ### The redirect -/

/-- The URL of a tenant's application, where one is set. -/
def Db.wxcodeUrlOf (db : Db) (tenantId : Uuid) : Option String :=
  (db.tenant tenantId).bind fun tenant => tenant.wxcodeUrl.filter (· ≠ "")

theorem tenant_id {db : Db} {id : Uuid} {tenant : Tenant} (h : db.tenant id = some tenant) :
    tenant.id = id := by simpa using List.find?_some h

theorem tenantRedirect_eq (tenant : Tenant) :
    tenantRedirect tenant = (tenant.wxcodeUrl.filter (· ≠ "")).map fun url => (url, tenant.id) := by
  unfold tenantRedirect
  cases tenant.wxcodeUrl with
  | none => rfl
  | some url => by_cases hEmpty : url = "" <;> simp [Option.filter, hEmpty]

theorem bind_tenantRedirect (db : Db) (id : Uuid) :
    (db.tenant id).bind tenantRedirect = (db.wxcodeUrlOf id).map fun url => (url, id) := by
  unfold Db.wxcodeUrlOf
  cases hTenant : db.tenant id with
  | none => rfl
  | some tenant =>
    rw [Option.bind_some, Option.bind_some, tenantRedirect_eq, tenant_id hTenant]

theorem getRedirectUrl_eq (user : User) (db : Db) :
    getRedirectUrl user db =
      (user.lastUsedTenantId.bind fun id => (db.wxcodeUrlOf id).map fun url => (url, id)).or
        ((db.latestMembership user.id).bind fun m =>
          (db.wxcodeUrlOf m.tenantId).map fun url => (url, m.tenantId)) := by
  rw [Option.or_eq_orElse]
  simp only [getRedirectUrl, Option.bind_assoc, bind_tenantRedirect]
  rfl

/-- Where a redirect is made, the token behind the code is the one that was issued. -/
theorem redirectToWxcode_ok {user : User} {url code : String}
    (h : (redirectToWxcode c user t).run w = .ok (some (url, code)) w') :
    (∃ tenantId, getRedirectUrl user w.db = some (url, tenantId)) ∧
      (∃ deadline, w'.cache.wxcodeCode.entry code =
        some (⟨user.id, t.accessToken, t.refreshToken⟩, deadline)) ∧
      w'.db.memberships = w.db.memberships ∧ w'.db.tenants = w.db.tenants := by
  simp only [redirectToWxcode, Handler.run_query_bind] at h
  split at h
  · simp at h
  · rename_i url' tenantId hUrl
    simp only [createWxcodeCode, bind_assoc, pure_bind, Handler.run_store_bind,
      Handler.run_exec_bind, Handler.run_pure_ok, Option.some.injEq, Prod.mk.injEq] at h
    obtain ⟨⟨rfl, rfl⟩, rfl⟩ := h
    refine ⟨⟨tenantId, hUrl⟩, ⟨some (c.now + seconds c.settings.wxcodeCodeTtl), ?_⟩, rfl, rfl⟩
    simp only [Expiring.set, Function.update_self]

theorem getRedirectUrl_ne {user : User} {db : Db} {url : String} {tenantId : Uuid}
    (h : getRedirectUrl user db = some (url, tenantId)) : url ≠ "" := by
  have hUrlOf : ∃ id, db.wxcodeUrlOf id = some url := by
    rw [getRedirectUrl_eq, Option.or_eq_some_iff] at h
    rcases h with h | ⟨-, h⟩
    all_goals
      obtain ⟨_, -, h⟩ := Option.bind_eq_some_iff.mp h
      obtain ⟨_, hUrl, h⟩ := Option.map_eq_some_iff.mp h
      exact ⟨_, (Prod.mk.inj h).1 ▸ hUrl⟩
  obtain ⟨id, hUrl⟩ := hUrlOf
  obtain ⟨tenant, -, hFilter⟩ := Option.bind_eq_some_iff.mp hUrl
  simpa using (Option.filter_eq_some_iff.mp hFilter).2

theorem getRedirectUrl_congr {db db' : Db} (hMembers : db'.memberships = db.memberships)
    (hTenants : db'.tenants = db.tenants) (user : User) :
    getRedirectUrl user db' = getRedirectUrl user db := by
  have hTenant : db'.tenant = db.tenant := by
    funext id
    simp only [Db.tenant, hTenants]
  simp only [getRedirectUrl, hTenant, latestMembership_congr hMembers]

/-- The two lookups of the current tenant agree for the user: a member of the last used tenant finds
a URL there, and for anyone else that tenant has no URL, or the URL of the tenant that the user
joined last. -/
structure Db.TenantsAgree (db : Db) (user : User) : Prop where
  member : ∀ id ∈ user.lastUsedTenantId, (db.membership user.id id).isSome = true →
    (db.wxcodeUrlOf id).isSome = true
  stranger : ∀ id ∈ user.lastUsedTenantId, db.membership user.id id = none →
    db.wxcodeUrlOf id = none ∨
      ∃ m, db.latestMembership user.id = some m ∧ db.wxcodeUrlOf m.tenantId = db.wxcodeUrlOf id

/-- The redirect goes to the tenant of the claims exactly when the two lookups agree. -/
theorem getRedirectUrl_claims_iff {user : User} {db : Db} {url : String} {tenantId : Uuid}
    (h : getRedirectUrl user db = some (url, tenantId)) :
    (∃ m, claimsMembership user db = some m ∧ db.wxcodeUrlOf m.tenantId = some url) ↔
      db.TenantsAgree user := by
  rw [getRedirectUrl_eq] at h
  cases hLast : user.lastUsedTenantId with
  | none =>
    refine iff_of_true ?_ ⟨by simp [hLast], by simp [hLast]⟩
    simp only [hLast, Option.bind_none, Option.none_or, Option.bind_eq_some_iff,
      Option.map_eq_some_iff, Prod.mk.injEq] at h
    obtain ⟨m, hLatest, _, hUrl, rfl, -⟩ := h
    exact ⟨m, by simp [claimsMembership, hLast, hLatest], hUrl⟩
  | some id =>
    simp only [hLast, Option.bind_some] at h
    cases hMember : db.membership user.id id with
    | some m =>
      have hClaims : claimsMembership user db = some m := by
        simp [claimsMembership, hLast, hMember]
      have hTenant : m.tenantId = id := (Db.membership_mem hMember).2.2
      constructor
      · rintro ⟨m', hm', hUrl⟩
        obtain rfl := Option.some.inj (hClaims.symm.trans hm')
        exact ⟨by simp [hLast, ← hTenant, hUrl], by simp [hLast, hMember]⟩
      · intro hAgree
        obtain ⟨u, hu⟩ := Option.isSome_iff_exists.mp (hAgree.member id hLast (by simp [hMember]))
        simp only [hu, Option.map_some, Option.some_or, Option.some.injEq, Prod.mk.injEq] at h
        exact ⟨m, hClaims, by rw [hTenant, hu, h.1]⟩
    | none =>
      have hClaims : claimsMembership user db = db.latestMembership user.id := by
        simp [claimsMembership, hLast, hMember]
      rw [hClaims]
      cases hUrl : db.wxcodeUrlOf id with
      | none =>
        simp only [hUrl, Option.map_none, Option.none_or, Option.bind_eq_some_iff,
          Option.map_eq_some_iff, Prod.mk.injEq] at h
        obtain ⟨m, hLatest, _, hm, rfl, -⟩ := h
        exact iff_of_true ⟨m, hLatest, hm⟩
          ⟨by simp [hLast, hMember], by simp [hLast, hUrl]⟩
      | some u =>
        simp only [hUrl, Option.map_some, Option.some_or, Option.some.injEq,
          Prod.mk.injEq] at h
        obtain ⟨rfl, rfl⟩ := h
        constructor
        · rintro ⟨m, hLatest, hm⟩
          exact ⟨by simp [hLast, hMember], by simp [hLast, hUrl, hLatest, hm]⟩
        · intro hAgree
          simpa [hUrl] using hAgree.stranger id hLast hMember

/-! ### The two sign-ins that redirect -/

def Response.redirect : Response → Option (String × String)
  | .login _ redirect => redirect
  | .mfaVerify result => result.redirect
  | _ => none

def Request.redirects : Request → Bool
  | .login .. | .mfaVerify .. => true
  | _ => false

/-- The user who signs in with a password or with the second factor. -/
def Request.signingIn (c : Ctx) (w : World) : Request → Option User
  | .login email .. => w.db.userByEmail email
  | .mfaVerify body .. => pendingUser c w body.mfaToken
  | _ => none

/-- The URL is the one of a tenant of which the user is a member, and the token behind the code is
for that tenant, with the role of the user in it. -/
def World.RedirectAgrees (w : World) (userId : Uuid) (url code : String) : Prop :=
  ∃ tenant m data deadline, tenant ∈ w.db.tenants ∧ tenant.wxcodeUrl = some url ∧
    w.db.membership userId tenant.id = some m ∧
    w.cache.wxcodeCode.entry code = some (data, deadline) ∧
    data.accessToken.tenantId = some tenant.id ∧ data.accessToken.role = some m.role.value

theorem claimsMembership_mem {user : User} {db : Db} {m : TenantMembership}
    (h : claimsMembership user db = some m) : m ∈ db.memberships ∧ m.userId = user.id := by
  unfold claimsMembership at h
  split at h
  · rename_i m' hMember
    obtain rfl := Option.some.inj h
    obtain ⟨id, -, hMember⟩ := Option.bind_eq_some_iff.mp hMember
    exact ⟨(Db.membership_mem hMember).1, (Db.membership_mem hMember).2.1⟩
  · exact latestMembership_mem h

/-- The redirect of a token that was minted in a state with the same members and tenants. -/
theorem redirectAgrees_iff {user : User} {db : Db} {url code : String} {tenantId : Uuid}
    (hValid : db.Valid) (hMembers : w'.db.memberships = db.memberships)
    (hTenants : w'.db.tenants = db.tenants)
    (hUrl : getRedirectUrl user db = some (url, tenantId))
    (hCode : ∃ refreshToken deadline, w'.cache.wxcodeCode.entry code =
      some (⟨user.id, mintedFor c user db, refreshToken⟩, deadline)) :
    w'.RedirectAgrees user.id url code ↔ db.TenantsAgree user := by
  rw [← getRedirectUrl_claims_iff hUrl]
  obtain ⟨refreshToken, deadline, hCode⟩ := hCode
  have hMembership : w'.db.membership user.id = db.membership user.id := by
    funext id
    simp only [Db.membership, hMembers]
  unfold World.RedirectAgrees
  rw [hTenants, hMembership]
  constructor
  · rintro ⟨tenant, m, data, deadline', hTenant, hTenantUrl, -, hData, hTenantId, -⟩
    rw [hCode] at hData
    obtain ⟨rfl, -⟩ := Prod.mk.inj (Option.some.inj hData)
    simp only [mintedFor, createAccessToken, buildRegularAccessClaims] at hTenantId
    split at hTenantId
    · rename_i m' hClaims
      have hId : m'.tenantId = tenant.id := by simpa using hTenantId
      refine ⟨m', hClaims, ?_⟩
      have hNonempty : url ≠ "" := getRedirectUrl_ne hUrl
      simp [hId, Db.wxcodeUrlOf, hValid.tenant_of_mem hTenant, hTenantUrl, Option.filter, hNonempty]
    · simp at hTenantId
  · rintro ⟨m, hClaims, hTenantUrl⟩
    obtain ⟨hMem, hUser⟩ := claimsMembership_mem hClaims
    obtain ⟨tenant, hTenant, hFilter⟩ := Option.bind_eq_some_iff.mp hTenantUrl
    obtain ⟨hTenantUrl, -⟩ := Option.filter_eq_some_iff.mp hFilter
    have hId := tenant_id hTenant
    refine ⟨tenant, m, _, deadline, List.mem_of_find?_eq_some hTenant, hTenantUrl, ?_, hCode, ?_, ?_⟩
    · rw [hId, ← hUser]
      exact hValid.membership_of_mem hMem
    · simp only [mintedFor, createAccessToken, buildRegularAccessClaims, hClaims, hId]
    · simp only [mintedFor, createAccessToken, buildRegularAccessClaims, hClaims]

theorem loginResponse_redirect {result : LoginResult} {found : Option User} {response : Response}
    {url code : String} (h : (Router.loginResponse c result found).run w = .ok response w')
    (hRedirect : response.redirect = some (url, code)) :
    ∃ pair user, result = .tokens pair ∧ found = some user ∧
      (redirectToWxcode c user pair).run w = .ok (some (url, code)) w' := by
  unfold Router.loginResponse at h
  split at h
  · obtain ⟨redirect, m, hRun, h⟩ := Handler.run_bind_ok.mp h
    obtain ⟨rfl, rfl⟩ := Handler.run_pure_ok.mp h
    exact ⟨_, _, rfl, rfl, hRun.trans (by rw [show redirect = some (url, code) from hRedirect])⟩
  · obtain ⟨rfl, rfl⟩ := Handler.run_pure_ok.mp h
    cases hRedirect

theorem handle_redirect_none {r : Request} (h : r.redirects = false) :
    Returns (fun response => response.redirect = none) (handle c r) := by
  cases r
  all_goals first
    | (cases h; done)
    | (repeat refine Returns.bind fun _ => ?_
       exact .pure rfl)

/-- A sign-in that redirects has issued the token of a user, whom it leaves the same members and
tenants as before. -/
theorem handle_redirect {r : Request} {response : Response} {url code : String}
    (h : (handle c r).run w = .ok response w') (hRedirect : response.redirect = some (url, code)) :
    ∃ user tenantId refreshToken deadline, r.signingIn c w = some user ∧
      getRedirectUrl user w.db = some (url, tenantId) ∧
      w'.cache.wxcodeCode.entry code =
        some (⟨user.id, mintedFor c user w.db, refreshToken⟩, deadline) := by
  cases r with
  | login email password device ua ip =>
    obtain ⟨result, m, hLogin, h⟩ := Handler.run_bind_ok.mp h
    rw [Handler.run_query_bind] at h
    obtain ⟨pair, user, rfl, hFound, h⟩ := loginResponse_redirect h hRedirect
    have hSame (p : Part) (hp : p ∉ [Part.trustedDevices, .mfaPending, .refreshTokens, .sessions,
        .replay]) : p.Same w m := (login_touches _ _ _ _ _ p hp).of_ok hLogin
    have hUsers : m.db.users = w.db.users := hSame .users (by simp)
    have hMembers : m.db.memberships = w.db.memberships := hSame .memberships (by simp)
    have hTenants : m.db.tenants = w.db.tenants := hSame .tenants (by simp)
    obtain ⟨user', hUser', -, -, hMinted⟩ := login_minted hLogin
    have hEmail : w.db.userByEmail email = some user := by
      rw [← hFound, Db.userByEmail, Db.userByEmail, hUsers]
    obtain rfl := Option.some.inj (hUser'.symm.trans hEmail)
    obtain ⟨⟨tenantId, hUrl⟩, ⟨deadline, hCode⟩, -, -⟩ := redirectToWxcode_ok h
    refine ⟨user', tenantId, pair.refreshToken, deadline, hEmail, ?_, hMinted.token ▸ hCode⟩
    rw [← hUrl, getRedirectUrl_congr hMembers hTenants]
  | mfaVerify body ua ip =>
    obtain ⟨result, m, hVerify, h⟩ := Handler.run_bind_ok.mp h
    obtain ⟨rfl, rfl⟩ := Handler.run_pure_ok.mp h
    obtain ⟨user, m', hUser, -, hMembers, hTenants, h⟩ := mfaVerify_completes hVerify
    simp only [completeMfaLogin, Handler.run_store_bind] at h
    obtain ⟨pair, m₁, hIssue, h⟩ := Handler.run_bind_ok.mp h
    obtain ⟨redirect, m₂, hRun, h⟩ := Handler.run_bind_ok.mp h
    have hSame (p : Part) (hp : p ∉ [Part.refreshTokens, .sessions, .replay]) : p.Same _ m₁ :=
      (issueTokens_touches _ _ _ p hp).of_ok hIssue
    have hMembers₁ : m₁.db.memberships = w.db.memberships :=
      (hSame .memberships (by simp)).trans hMembers
    have hTenants₁ : m₁.db.tenants = w.db.tenants := (hSame .tenants (by simp)).trans hTenants
    have hEnd : redirect = some (url, code) ∧ m₂.cache.wxcodeCode = m.cache.wxcodeCode := by
      simp only [Handler.run_ite_ok] at h
      rcases h with ⟨-, h⟩ | ⟨-, h⟩
      · obtain ⟨_, m₃, hDevice, h⟩ := Handler.run_bind_ok.mp h
        obtain ⟨rfl, rfl⟩ := Handler.run_pure_ok.mp h
        exact ⟨hRedirect, ((createTrustedDevice_touches _ .wxcodeCode (by simp)).of_ok hDevice).symm⟩
      · obtain ⟨rfl, rfl⟩ := Handler.run_pure_ok.mp h
        exact ⟨hRedirect, rfl⟩
    obtain ⟨rfl, hCache⟩ := hEnd
    obtain ⟨⟨tenantId, hUrl⟩, ⟨deadline, hCode⟩, -, -⟩ := redirectToWxcode_ok hRun
    refine ⟨user, tenantId, pair.refreshToken, deadline, hUser, ?_, ?_⟩
    · rw [← hUrl, getRedirectUrl_congr hMembers₁ hTenants₁]
    · rw [← hCache, hCode, ((issueTokens_minted hIssue).congr hMembers).token]
  | _ => cases (handle_redirect_none rfl _ _ _ h).symm.trans hRedirect

/-- Where a sign-in redirects, the redirect goes to the tenant of the token exactly when the two
lookups of the tenant agree for the user. -/
theorem redirect_agrees_iff {r : Request} {response : Response} {url code : String}
    (hValid : w.db.Valid) (hServe : serve c r w = (.ok response, w'))
    (hRedirect : response.redirect = some (url, code)) :
    ∃ user, r.signingIn c w = some user ∧
      (w'.RedirectAgrees user.id url code ↔ w.db.TenantsAgree user) := by
  obtain ⟨a, m, hHandle, hFlush⟩ := Handler.run_bind_ok.mp (Handler.atomically_ok.mp hServe)
  simp only [run_flush_bind_ok, Handler.run_pure_ok] at hFlush
  obtain ⟨-, rfl, rfl⟩ := hFlush
  obtain ⟨user, tenantId, refreshToken, deadline, hUser, hUrl, hCode⟩ :=
    handle_redirect hHandle hRedirect
  have hSame (p : Part) (hp : p ∉ r.parts) : p.Same w m :=
    (handle_touches r p hp).of_ok hHandle
  have hParts : Part.memberships ∉ r.parts ∧ Part.tenants ∉ r.parts := by
    cases r <;> first | cases hUser | simp [Request.parts]
  exact ⟨user, hUser, redirectAgrees_iff hValid (hSame .memberships hParts.1)
    (hSame .tenants hParts.2) hUrl ⟨refreshToken, deadline, hCode⟩⟩

/-! ### A user who has left -/

def leftTenant : Tenant where
  id := ⟨7⟩
  name := "Left"
  slug := "left"
  wxcodeUrl := some "https://left.example.com"

def currentTenant : Tenant where
  id := ⟨8⟩
  name := "Current"
  slug := "current"
  wxcodeUrl := some "https://current.example.com"

/-- Alice was last sent to a tenant that she is no member of any more. -/
def leftLastTenant : World where
  db :=
    { users := [{ sampleUser with lastUsedTenantId := some ⟨7⟩ }]
      tenants := [leftTenant, currentTenant]
      memberships :=
        [{ id := ⟨1⟩, userId := ⟨1⟩, tenantId := ⟨8⟩, role := .viewer, createdAt := 0 }] }
  cache := {}

def leftCtx : Ctx := ⟨sampleConfig, seconds 10, sampleDraws 0⟩

def leftRequest : Request := .login "alice@example.com" "pw" none none none

def leftToken : Payload where
  sub := ⟨1⟩
  aud := some "wxcode-adm"
  iat := 10
  exp := 86410
  jti := ⟨0⟩
  tenantId := some ⟨8⟩
  role := some "viewer"

def leftResponse : Response :=
  .login (.tokens ⟨leftToken, "refresh-0"⟩) (some ("https://left.example.com", "code-0"))

theorem leftLogin_serve :
    serve leftCtx leftRequest leftLastTenant =
      (.ok leftResponse, (serve leftCtx leftRequest leftLastTenant).2) := rfl

/-- Alice is sent to a tenant that she has left, with a token for another. -/
theorem redirect_to_left_tenant :
    ¬∀ (c : Ctx) (w w' : World) (r : Request) (response : Response) (user : User)
      (url code : String), w.db.Valid → serve c r w = (.ok response, w') →
        r.signingIn c w = some user → response.redirect = some (url, code) →
        w'.RedirectAgrees user.id url code := by
  intro hClaim
  obtain ⟨tenant, m, data, deadline, hTenant, hUrl, hMember, -⟩ :=
    hClaim leftCtx leftLastTenant _ leftRequest leftResponse _ _ _ (by decide) leftLogin_serve rfl
      rfl
  have hLeft : tenant = leftTenant := by
    have hTenants : tenant ∈ [leftTenant, currentTenant] := hTenant
    simp only [List.mem_cons, List.not_mem_nil, or_false] at hTenants
    rcases hTenants with rfl | rfl
    · rfl
    · exact absurd hUrl (by decide)
  subst hLeft
  cases hMember

/-- The law at that login. -/
theorem redirect_agrees_iff_left :
    ∃ user, leftRequest.signingIn leftCtx leftLastTenant = some user ∧
      ((serve leftCtx leftRequest leftLastTenant).2.RedirectAgrees user.id
          "https://left.example.com" "code-0" ↔
        leftLastTenant.db.TenantsAgree user) :=
  redirect_agrees_iff (by decide) leftLogin_serve rfl

end WxcodeAdm
