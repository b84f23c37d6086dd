import WxcodeAdm.Guarantees.RedirectTenant
import WxcodeAdm.Origins

/-! The tenant claims of a new access token, and the guard that checks the same tenant again.
`_build_regular_access_claims` takes a membership as it finds it; `get_tenant_context` also asks
whether the user, the membership and the tenant are in good standing. -/

namespace WxcodeAdm

open Lib

variable {c : Ctx} {w w' : World} {t : TokenResponse}

/-! ### The guard -/

/-- What the guard reads of the user's row. -/
def User.gate (u : User) : Bool × Bool × Bool :=
  (u.isActive, u.passwordResetRequired, u.emailVerified)

theorem getTenantContext_run_iff {p : Payload} {header : String} {tenant : Tenant}
    {m : TenantMembership} :
    (∃ w', (getTenantContext c (.signed p) (some header)).run w = .ok (tenant, m) w') ↔
      c.now < seconds p.exp ∧ p.aud = some "wxcode-adm" ∧
        w.cache.blacklist.has c.now p.jti = false ∧
        ∃ u, w.db.user p.sub = some u ∧ u.gate = (true, false, true) ∧
          resolveTenant c header w.db = some tenant ∧ tenant.isDeleted = false ∧
          tenant.isSuspended = false ∧ w.db.membership u.id tenant.id = some m ∧
          m.isBlocked = false := by
  simp only [getTenantContext, requireVerified, bind_assoc, pure_bind,
    Handler.run_bind_ok (x := getCurrentUser _ _), getCurrentUser_ok, Handler.run_ensure_bind_ok,
    Handler.run_orRaise_bind_ok, Handler.run_query_bind, Handler.run_pure_ok, User.gate]
  constructor
  · rintro ⟨w', u, m', ⟨p', hp, hExp, hAud, hBlack, hUser, hActive, hReset, rfl⟩, hVerified,
      header', hHeader, tenant', hTenant, hDeleted, hSuspended, m₀, hMember, hBlocked, hEq, rfl⟩
    obtain rfl := Bearer.signed.inj hp
    obtain rfl := Option.some.inj hHeader
    obtain ⟨rfl, rfl⟩ := Prod.mk.inj hEq
    exact ⟨hExp, hAud, hBlack, u, hUser, by simp [hActive, hReset, hVerified], hTenant, hDeleted,
      hSuspended, hMember, hBlocked⟩
  · rintro ⟨hExp, hAud, hBlack, u, hUser, hGate, hTenant, hDeleted, hSuspended, hMember, hBlocked⟩
    simp only [Prod.mk.injEq] at hGate
    obtain ⟨hActive, hReset, hVerified⟩ := hGate
    exact ⟨_, u, _, ⟨p, rfl, hExp, hAud, hBlack, hUser, hActive, hReset, rfl⟩, hVerified, header,
      rfl, tenant, hTenant, hDeleted, hSuspended, m, hMember, hBlocked, rfl, rfl⟩

/-! ### Minting -/

/-- The user whom a request signs in that mints a regular token, unless it makes a new one. -/
def Request.mintsFor (c : Ctx) (w : World) : Request → Option User
  | .login email .. => w.db.userByEmail email
  | .mfaVerify body .. => pendingUser c w body.mfaToken
  | .refresh token .. => (w.db.refreshToken token).bind fun row => w.db.user row.userId
  | .oauthCallback provider _ puid .. =>
    (w.db.oauthAccounts.find? fun a => a.provider = provider ∧ a.providerUserId = puid).bind
      fun account => w.db.user account.userId
  | .oauthLinkConfirm linkToken .. =>
    (w.cache.oauthLink.get c.now linkToken).bind fun link => w.db.user link.userId
  | _ => none

theorem refresh_minted {token : String} {ua ip : Option String}
    (h : (refresh c token ua ip).run w = .ok t w') :
    ∃ user, Request.mintsFor c w (.refresh token ua ip) = some user ∧ Minted c user w.db t := by
  obtain ⟨row, hRow, -, hRotate⟩ := refresh_ok h
  obtain ⟨user, hUser, rfl, -⟩ := rotate_ok hRotate
  refine ⟨user, by simp [Request.mintsFor, hRow, hUser], ?_, rotate_live hRotate⟩
  rw [mintedFor, Db.user_id hUser]

theorem confirmOauthLink_minted {linkToken password : PyStr} {ua ip : Option String}
    (h : (confirmOauthLink c linkToken password ua ip).run w = .ok t w') :
    ∃ user, Request.mintsFor c w (.oauthLinkConfirm linkToken password ua ip) = some user ∧
      Minted c user w.db t := by
  simp only [confirmOauthLink, addOAuthAccount, Handler.run_lookup_bind,
    Handler.run_orRaise_bind_ok, Handler.run_query_bind, Handler.run_ofExcept_bind_ok,
    Handler.run_ensure_bind_ok, Handler.run_store_bind, bind_assoc, Handler.run_exec_bind,
    run_flush_bind_ok] at h
  obtain ⟨link, hLink, user, hUser, _, -, -, -, hIssue⟩ := h
  refine ⟨user, by simp [Request.mintsFor, hLink, hUser], ?_⟩
  exact (issueTokens_minted hIssue).congr rfl

/-- A new user is in no tenant, and neither is the token. -/
theorem oauthSignup_tenantId {provider email puid : String} {ua ip : Option String}
    {isNew onboard : Bool} (hValid : w.db.Valid)
    (h : (oauthSignup c provider email puid ua ip).run w = .ok (.callback t isNew onboard) w') :
    t.accessToken.tenantId = none := by
  obtain ⟨hNew, t', _, m, hResult, hMembers, -, hIssue⟩ := oauthSignup_ok h
  obtain ⟨rfl, -, -⟩ := OAuthResult.callback.inj hResult
  rw [((issueTokens_minted hIssue).congr hMembers).token, mintedFor, createAccessToken,
    buildRegularAccessClaims]
  split
  · rename_i membership hClaims
    obtain ⟨hMem, hUser⟩ := claimsMembership_mem hClaims
    have hHas := hValid.membershipUser membership hMem
    rw [hUser] at hHas
    exact absurd hHas hNew
  · rfl

/-- The users keep what the guard reads of them. -/
def SameGates (s s' : World) : Prop :=
  ∀ id, (s'.db.user id).map User.gate = (s.db.user id).map User.gate

instance : Std.Refl SameGates := ⟨fun _ _ => rfl⟩

instance : IsTrans World SameGates := ⟨fun _ _ _ h h' id => (h' id).trans (h id)⟩

theorem Touches.sameGates {α : Type} {parts : List Part} {h : App α} (ht : Touches parts h)
    (hUsers : Part.users ∉ parts) : Handler.Within SameGates h := fun s id => by
  have hSame : (h.final s).db.users = s.db.users := ht .users hUsers s
  rw [Db.user, Db.user, hSame]

theorem redirectToWxcode_sameGates (user : User) (tokens : TokenResponse) :
    Handler.Within SameGates (redirectToWxcode c user tokens) :=
  .bind (.query _) fun found => by
    cases found with
    | none => exact .pure _
    | some _ =>
      refine .bind ((createWxcodeCode_touches _ _).sameGates (by simp)) fun _ =>
        .bind (.exec fun s id => ?_) fun _ => .pure _
      rw [Db.user_updateUser (by exact fun _ => rfl), Option.map_map]
      congr 1
      funext u
      simp only [Function.comp]
      split <;> rfl

theorem loginResponse_sameGates (result : LoginResult) (user : Option User) :
    Handler.Within SameGates (Router.loginResponse c result user) := by
  unfold Router.loginResponse
  split
  · exact .bind (redirectToWxcode_sameGates _ _) fun _ => .pure _
  · exact .pure _

theorem mfaVerify_sameGates (body : MfaVerifyRequest) (ua ip : Option String) :
    Handler.Within SameGates (mfaVerify c body ua ip) :=
  .bind (.lookup _) fun _ => .bind (.orRaise _ _) fun _ => .bind (.ofExcept _) fun _ =>
    .bind (.query _) fun _ => .bind (.orRaise _ _) fun _ => .bind (.ensure _ _) fun _ =>
    .bind (.lookup _) fun _ => .bind (.ensure _ _) fun _ =>
    .bind ((verifySecondFactor_touches _ _).sameGates (by simp)) fun _ =>
    .bind (touches_mfaPending.sameGates (by simp)) fun _ =>
    .bind ((issueTokens_touches _ _ _).sameGates (by simp)) fun _ =>
    .bind (redirectToWxcode_sameGates _ _) fun _ => .ite
      (.bind ((createTrustedDevice_touches _).sameGates (by simp)) fun _ => .pure _) (.pure _)

/-- A request that mints a regular token with a tenant mints it for a user who was there, whose gate
it keeps. -/
theorem handle_mints {r : Request} {response : Response} (hValid : w.db.Valid)
    (hRun : (handle c r).run w = .ok response w') (hIssued : response.issued = some t)
    (hAudience : r.audience = "wxcode-adm") (hTenant : t.accessToken.tenantId ≠ none) :
    ∃ user, r.mintsFor c w = some user ∧ w.db.user user.id = some user ∧
      Minted c user w.db t ∧ SameGates w w' := by
  cases r with
  | login email password device ua ip =>
    have hGates : Handler.Within SameGates (Router.login c email password device ua ip) :=
      .bind ((login_touches _ _ _ _ _).sameGates (by simp)) fun _ => .bind (.query _) fun _ =>
        loginResponse_sameGates _ _
    obtain ⟨m, hLogin⟩ := login_route_issued hRun hIssued
    obtain ⟨user, hUser, -, -, hMinted⟩ := login_minted hLogin
    exact ⟨user, hUser, hValid.user_of_mem (List.mem_of_find?_eq_some hUser), hMinted,
      hGates.of_ok hRun⟩
  | mfaVerify body ua ip =>
    obtain ⟨result, m, hVerify, hRun⟩ := Handler.run_bind_ok.mp hRun
    obtain ⟨rfl, rfl⟩ := Handler.run_pure_ok.mp hRun
    obtain rfl := Option.some.inj hIssued
    obtain ⟨user, m', hUser, -, hMembers, -, hComplete⟩ := mfaVerify_completes hVerify
    obtain ⟨_, -, hFound⟩ := Option.bind_eq_some_iff.mp hUser
    exact ⟨user, hUser, Db.user_id hFound ▸ hFound,
      (completeMfaLogin_minted hComplete).congr hMembers, (mfaVerify_sameGates _ _ _).of_ok hVerify⟩
  | refresh token ua ip =>
    obtain ⟨pair, m, hRefresh, hRun⟩ := Handler.run_bind_ok.mp hRun
    obtain ⟨rfl, rfl⟩ := Handler.run_pure_ok.mp hRun
    obtain rfl := Option.some.inj hIssued
    obtain ⟨user, hUser, hMinted⟩ := refresh_minted hRefresh
    obtain ⟨row, -, hFound⟩ := Option.bind_eq_some_iff.mp hUser
    exact ⟨user, hUser, Db.user_id hFound ▸ hFound, hMinted,
      ((refresh_touches _ _ _).sameGates (by simp)).of_ok hRefresh⟩
  | oauthCallback provider email puid ua ip =>
    simp only [handle, Router.oauthCallback, Handler.run_ensure_bind_ok] at hRun
    obtain ⟨-, hRun⟩ := hRun
    obtain ⟨result, m, hResolve, hRun⟩ := Handler.run_bind_ok.mp hRun
    obtain ⟨rfl, rfl⟩ := Handler.run_pure_ok.mp hRun
    cases result with
    | link => cases hIssued
    | callback pair isNew onboard =>
      obtain rfl := Option.some.inj hIssued
      rcases resolveOauthAccount_ok hResolve with ⟨account, hAccount, hLogin⟩ | ⟨-, hSignup⟩
      · obtain ⟨user, _, hUser, hIssue⟩ := oauthLogin_ok hLogin
        refine ⟨user, ?_, Db.user_id hUser ▸ hUser, issueTokens_minted hIssue,
          ((oauthLogin_touches _ _ _).sameGates (by simp)).of_ok hLogin⟩
        simp only [Request.mintsFor, hAccount, Option.bind_some, hUser]
      · exact absurd (oauthSignup_tenantId hValid hSignup) hTenant
  | oauthLinkConfirm linkToken password ua ip =>
    obtain ⟨pair, m, hConfirm, hRun⟩ := Handler.run_bind_ok.mp hRun
    obtain ⟨rfl, rfl⟩ := Handler.run_pure_ok.mp hRun
    obtain rfl := Option.some.inj hIssued
    obtain ⟨user, hUser, hMinted⟩ := confirmOauthLink_minted hConfirm
    obtain ⟨link, -, hFound⟩ := Option.bind_eq_some_iff.mp hUser
    exact ⟨user, hUser, Db.user_id hFound ▸ hFound, hMinted,
      ((confirmOauthLink_touches _ _ _ _).sameGates (by simp)).of_ok hConfirm⟩
  | adminLogin | adminRefresh => simp [Request.audience] at hAudience
  | _ => cases (handle_returns rfl _ _ _ hRun).symm.trans hIssued

theorem Request.parts_of_mints {r : Request} {user : User} (h : r.mintsFor c w = some user) :
    Part.memberships ∉ r.parts ∧ Part.tenants ∉ r.parts ∧ Part.blacklist ∉ r.parts := by
  cases r <;> first | cases h | simp [Request.parts]

/-! ### The two compared -/

/-- The user and the membership pass what the guard asks of them and of the tenant. -/
structure Db.Welcomes (db : Db) (user : User) (m : TenantMembership) : Prop where
  active : user.isActive = true
  verified : user.emailVerified = true
  noReset : user.passwordResetRequired = false
  notBlocked : m.isBlocked = false
  tenant : ∃ tenant, db.tenant m.tenantId = some tenant ∧ tenant.isDeleted = false ∧
    tenant.isSuspended = false

/-- In this state `get_tenant_context` lets the bearer of the token into the tenant, with the
role. -/
def Usable (cfg : Config) (s : Sys) (p : Payload) (tenantId : Uuid) (role : String) : Prop :=
  ∀ draws, ∃ tenant m w, (getTenantContext ⟨cfg, s.now, draws⟩ (.signed p)
    (some (cfg.lib.uuidText tenantId))).run s.world = .ok (tenant, m) w ∧ m.role.value = role

/-- A token of the user that is alive and not blacklisted opens the tenant of the membership exactly
when the guard has nothing against them. -/
theorem usable_iff {cfg : Config} {s : Sys} {p : Payload} {user : User} {m : TenantMembership}
    (hLive : s.now < seconds p.exp) (hAud : p.aud = some "wxcode-adm")
    (hBlacklist : s.world.cache.blacklist.has s.now p.jti = false)
    (hUser : (s.world.db.user p.sub).map User.gate = some user.gate)
    (hMember : s.world.db.membership p.sub m.tenantId = some m)
    (hText : cfg.lib.parseUuid (cfg.lib.uuidText m.tenantId) = some m.tenantId) :
    Usable cfg s p m.tenantId m.role.value ↔ s.world.db.Welcomes user m := by
  obtain ⟨u, hRow, hGate⟩ := Option.map_eq_some_iff.mp hUser
  have hId : u.id = p.sub := Db.user_id hRow
  have hResolve (draws : Draws) : resolveTenant ⟨cfg, s.now, draws⟩
      (cfg.lib.uuidText m.tenantId) s.world.db = s.world.db.tenant m.tenantId := by
    simp only [resolveTenant, hText]
  constructor
  · intro hUsable
    obtain ⟨tenant, m', w, hRun, -⟩ := hUsable default
    obtain ⟨-, -, -, u', hRow', hGate', hTenant, hDeleted, hSuspended, hMember', hBlocked⟩ :=
      getTenantContext_run_iff.mp ⟨w, hRun⟩
    obtain rfl := Option.some.inj (hRow.symm.trans hRow')
    rw [hResolve] at hTenant
    rw [hId, tenant_id hTenant, hMember] at hMember'
    obtain rfl := Option.some.inj hMember'
    rw [hGate] at hGate'
    simp only [User.gate, Prod.mk.injEq] at hGate'
    exact ⟨hGate'.1, hGate'.2.2, hGate'.2.1, hBlocked, tenant, hTenant, hDeleted, hSuspended⟩
  · rintro ⟨hActive, hVerified, hReset, hBlocked, tenant, hTenant, hDeleted, hSuspended⟩ draws
    have hPass : u.gate = (true, false, true) := by
      rw [hGate, User.gate, hActive, hReset, hVerified]
    obtain ⟨w, hRun⟩ := getTenantContext_run_iff.mpr ⟨hLive, hAud, hBlacklist, u, hRow, hPass,
      (hResolve draws).trans hTenant, hDeleted, hSuspended,
      by rw [hId, tenant_id hTenant, hMember], hBlocked⟩
    exact ⟨tenant, m, w, hRun, rfl⟩

/-- A new token that names a tenant opens it exactly when the user, the membership that the token is
made of and its tenant are in good standing. -/
theorem claims_usable_iff {cfg : Config} {s s' : Sys} {e : Event} {tenantId : Uuid} {role : String}
    (hReach : Reachable cfg s) (hStep : Step cfg s e s') (hIssued : e.issued = some t)
    (hAudience : e.request.audience = "wxcode-adm")
    (hTenant : t.accessToken.tenantId = some tenantId) (hRole : t.accessToken.role = some role)
    (hText : cfg.lib.parseUuid (cfg.lib.uuidText tenantId) = some tenantId) :
    ∃ user m, e.request.mintsFor (e.ctx cfg) s.world = some user ∧
      claimsMembership user s.world.db = some m ∧
      (Usable cfg s' t.accessToken tenantId role ↔ s.world.db.Welcomes user m) := by
  obtain ⟨response, hOk, hResponse⟩ := Event.issued_some hIssued
  have hValid := hReach.sound.valid
  obtain ⟨user, hMints, hUser, hMinted, hGates⟩ := handle_mints hValid (hStep.committed hOk).1
    hResponse hAudience (by simp [hTenant])
  obtain ⟨hMembers, hTenants, hBlacklist⟩ := Request.parts_of_mints hMints
  replace hMembers : s'.world.db.memberships = s.world.db.memberships := hStep.same hMembers
  replace hTenants : s'.world.db.tenants = s.world.db.tenants := hStep.same hTenants
  replace hBlacklist : s'.world.cache.blacklist = s.world.cache.blacklist := hStep.same hBlacklist
  -- The token is made of the membership of the claims.
  have hToken := hMinted.token
  simp only [mintedFor, createAccessToken, buildRegularAccessClaims] at hToken
  cases hClaims : claimsMembership user s.world.db with
  | none => simp [hToken, hClaims] at hTenant
  | some m =>
    simp only [hClaims] at hToken
    obtain rfl : m.tenantId = tenantId := by simpa [hToken] using hTenant
    obtain rfl : m.role.value = role := by simpa [hToken] using hRole
    refine ⟨user, m, hMints, hClaims, ?_⟩
    have hSub : t.accessToken.sub = user.id := by rw [hToken]
    have hWelcomes : s'.world.db.Welcomes user m ↔ s.world.db.Welcomes user m := by
      have hTenant : s'.world.db.tenant = s.world.db.tenant := by
        funext id
        simp only [Db.tenant, hTenants]
      exact ⟨fun h => { h with tenant := hTenant ▸ h.tenant },
        fun h => { h with tenant := hTenant ▸ h.tenant }⟩
    rw [← hWelcomes]
    refine usable_iff (hStep.clock ▸ hMinted.live) (by rw [hToken]; rfl) ?_ ?_ ?_ hText
    · have hFresh : ¬s.world.Knows e.draws.jti := hStep.jti_fresh hReach.traced
      have hEntry : s.world.cache.blacklist.entry e.draws.jti = none := by
        by_contra hSome
        exact hFresh (.inl hSome)
      have hJti : t.accessToken.jti = e.draws.jti := by rw [hToken]; rfl
      rw [hBlacklist, hJti]
      simp only [Expiring.has, Expiring.get, hEntry, Option.isSome_none]
    · rw [hSub, hGates, hUser, Option.map_some]
    · obtain ⟨hMem, hOwner⟩ := claimsMembership_mem hClaims
      have hFound := hValid.membership_of_mem hMem
      rw [hOwner] at hFound
      rw [hSub, Db.membership, hMembers]
      exact hFound

/-! ### A blocked member -/

def blockedConfig : Config :=
  ⟨{}, { sampleLib with parseUuid := fun text => List.lookup text [("7", ⟨7⟩)] }⟩

def rootUser : User where
  id := ⟨2⟩
  email := "root@example.com"
  passwordHash := some "salt$pw"
  isSuperuser := true

/-- Alice is a developer in one tenant, and there is a super-admin. -/
def blockedStart : Sys := sampleStart
  { users := [sampleUser, rootUser]
    tenants := [{ id := ⟨7⟩, name := "Acme", slug := "acme" }]
    memberships :=
      [{ id := ⟨1⟩, userId := ⟨1⟩, tenantId := ⟨7⟩, role := .developer, createdAt := 0 }] }

theorem blockedStart_initial : Initial blockedStart := ⟨by decide, rfl, rfl, rfl, rfl, rfl, rfl⟩

def rootToken : Payload where
  sub := ⟨2⟩
  aud := some "wxcode-adm-admin"
  iat := 10
  exp := 86410
  jti := ⟨0⟩

def rootSignedIn : Sys := (blockedStart.serve blockedConfig (seconds 10) (sampleDraws 0)
  (.adminLogin "root@example.com" "pw" none)).2

/-- The super-admin blocks Alice in the tenant. -/
def aliceBlocked : Sys := (rootSignedIn.serve blockedConfig (seconds 20) (sampleDraws 1)
  (.blockUser (.signed rootToken) ⟨1⟩ ⟨7⟩)).2

def blockedLogin : Event × Sys := aliceBlocked.serve blockedConfig (seconds 30) (sampleDraws 2)
  (.login "alice@example.com" "pw" none none none)

def blockedTokens : TokenResponse where
  accessToken :=
    { sub := ⟨1⟩, aud := some "wxcode-adm", iat := 30, exp := 86430, jti := ⟨2⟩,
      tenantId := some ⟨7⟩, role := some "developer" }
  refreshToken := "refresh-2"

theorem aliceBlocked_reachable : Reachable blockedConfig aliceBlocked :=
  (blockedStart_initial.reachable.step (.of_admits (by decide) (by trivial))).step
    (.of_admits (by decide) (by trivial))

theorem blockedLogin_step : Step blockedConfig aliceBlocked blockedLogin.1 blockedLogin.2 :=
  .of_admits (by decide) (by trivial)

theorem blockedLogin_issued : blockedLogin.1.issued = some blockedTokens := rfl

/-- Alice gets a token for the tenant that she is blocked in. -/
theorem blocked_member_claims :
    ¬∀ (cfg : Config) (s s' : Sys) (e : Event) (t : TokenResponse) (tenantId : Uuid)
      (role : String), Reachable cfg s → Step cfg s e s' → e.issued = some t →
        e.request.audience = "wxcode-adm" → t.accessToken.tenantId = some tenantId →
        t.accessToken.role = some role →
        cfg.lib.parseUuid (cfg.lib.uuidText tenantId) = some tenantId →
        Usable cfg s' t.accessToken tenantId role := by
  intro hClaim
  obtain ⟨tenant, m, w, hRun, -⟩ := hClaim blockedConfig _ _ _ blockedTokens ⟨7⟩ "developer"
    aliceBlocked_reachable blockedLogin_step blockedLogin_issued rfl rfl rfl rfl (sampleDraws 3)
  cases hRun

/-- The law at that login. -/
theorem claims_usable_iff_blocked :
    ∃ user m, blockedLogin.1.request.mintsFor (blockedLogin.1.ctx blockedConfig)
        aliceBlocked.world = some user ∧
      claimsMembership user aliceBlocked.world.db = some m ∧
      (Usable blockedConfig blockedLogin.2 blockedTokens.accessToken ⟨7⟩ "developer" ↔
        aliceBlocked.world.db.Welcomes user m) :=
  claims_usable_iff aliceBlocked_reachable blockedLogin_step blockedLogin_issued rfl rfl rfl rfl

end WxcodeAdm
