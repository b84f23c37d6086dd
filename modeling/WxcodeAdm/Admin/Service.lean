import WxcodeAdm.Auth.Account

/-! `admin/service.py` and `admin/dependencies.py`: the sessions of super-admins, and what they do
to tenants and users. -/

namespace WxcodeAdm

open Lib

variable (c : Ctx)

/-- A super-admin with a token of the admin audience. -/
def requireAdmin (token : Bearer) : App User := do
  let payload ← .ofExcept (decodeAdminAccessToken c token)
  let blacklisted ← isTokenBlacklisted c payload.jti
  .ensure (blacklisted = false) .invalidToken
  let found ← .query fun db => db.user payload.sub
  let user ← .orRaise found .invalidToken
  .ensure user.isActive .invalidToken
  .ensure user.isSuperuser (.forbidden "ADMIN_REQUIRED" "Super-admin access required")
  return user

/-! ### Sessions -/

/-- `str.isspace` of one character. -/
def isSpace (ch : Char) : Bool :=
  let n := ch.toNat
  9 ≤ n ∧ n ≤ 13 ∨ 28 ≤ n ∧ n ≤ 32 ∨ 0x2000 ≤ n ∧ n ≤ 0x200A ∨
    n ∈ [0x85, 0xA0, 0x1680, 0x2028, 0x2029, 0x202F, 0x205F, 0x3000]

def strip (s : String) : String :=
  .ofList ((s.toList.dropWhile isSpace).reverse.dropWhile isSpace).reverse

def allowedIps (setting : String) : List String :=
  ((setting.toList.splitOn ',').map fun ip => strip (.ofList ip)).filter (· ≠ "")

/-- The gate of the admin login; an empty setting lets everyone through. -/
def ipAllowed (clientIp : Option String) : Bool :=
  c.settings.adminAllowedIps = "" ∨ clientIp.any (· ∈ allowedIps c.settings.adminAllowedIps)

def adminLogin (email password : String) : App TokenResponse := do
  let found ← .query fun db => db.userByEmail email
  let user ← .orRaise found .invalidCredentials
  .ensure user.isSuperuser .invalidCredentials
  .ensure (user.passwordHash.any fun hash => hash ≠ "" && c.lib.verifyPassword password hash)
    .invalidCredentials
  .exec fun db => db.addRefreshToken (newRefreshToken c user.id)
  return ⟨createAdminAccessToken c user.id, c.draws.refreshToken⟩

/-- `admin_refresh` after the row was found and has not expired. -/
def adminRotate (row : RefreshToken) : App TokenResponse := do
  .exec fun db => db.deleteRefreshTokens fun r => r.id = row.id
  .exec fun db => db.addRefreshToken (newRefreshToken c row.userId)
  return ⟨createAdminAccessToken c row.userId, c.draws.refreshToken⟩

def adminRefresh (refreshToken : String) : App TokenResponse := do
  let found ← .query fun db => db.refreshToken refreshToken
  let row ← .orRaise found .invalidToken
  if row.expiresAt < c.now then
    .exec fun db => db.deleteRefreshTokens fun r => r.id = row.id
    .throw .tokenExpired
  else adminRotate c row

def adminLogout (refreshToken : String) (accessTokenJti : Uuid) : App Unit := do
  deleteIfFound refreshToken
  blacklistJti c accessTokenJti

/-! ### Tenants -/

/-- A change of a tenant row that must exist and that `refuse` does not turn away. -/
def changeTenant (tenantId : Uuid) (refuse : Tenant → Bool) (error : PyError)
    (change : Tenant → Tenant) : App Unit := do
  let found ← .query fun db => db.tenant tenantId
  let tenant ← .orRaise found (.notFound "TENANT_NOT_FOUND" "Tenant not found")
  .ensure (refuse tenant = false) error
  .exec fun db => db.updateTenant tenantId change

def suspendTenant (tenantId : Uuid) : App Unit := do
  changeTenant tenantId (fun t => t.isSuspended)
    (.conflict "ALREADY_SUSPENDED" "Tenant is already suspended")
    fun t => { t with isSuspended := true }
  let userIds ← .query fun db => db.memberIds tenantId
  revokeSessionsOf c userIds

def reactivateTenant (tenantId : Uuid) : App Unit :=
  changeTenant tenantId (fun t => !t.isSuspended)
    (.conflict "NOT_SUSPENDED" "Tenant is not currently suspended")
    fun t => { t with isSuspended := false }

def softDeleteTenant (tenantId : Uuid) : App Unit :=
  changeTenant tenantId (fun t => t.isDeleted)
    (.conflict "ALREADY_DELETED" "Tenant is already soft-deleted")
    fun t => { t with isDeleted := true }

/-! ### Users -/

def setBlocked (userId tenantId : Uuid) (blocked : Bool) : App Unit := do
  let found ← .query fun db => db.membership userId tenantId
  let membership ← .orRaise found
    (.notFound "MEMBERSHIP_NOT_FOUND" "User is not a member of the specified tenant")
  .exec fun db => db.updateMembership membership.id fun m => { m with isBlocked := blocked }

def blockUser (userId tenantId : Uuid) : App Unit := setBlocked userId tenantId true

def unblockUser (userId tenantId : Uuid) : App Unit := setBlocked userId tenantId false

def forcePasswordReset (userId : Uuid) : App Unit := do
  let found ← .query fun db => db.user userId
  let user ← .orRaise found (.notFound "USER_NOT_FOUND" "User not found")
  .exec fun db => db.updateUser userId fun u => { u with passwordResetRequired := true }
  revokeSessionsOf c [userId]
  flush
  enqueueJob (.sendResetEmail user.id user.email
    (generateResetToken c user.email (resetSalt c user)))

/-! ### What the functions do -/

variable {c} {s s' : World} {P : Power → Prop}

theorem requireAdmin_ok {token : Bearer} {u : User} :
    (requireAdmin c token).run s = .ok u s' ↔ ∃ p, token = .signed p ∧ c.now < seconds p.exp ∧
      p.aud = some "wxcode-adm-admin" ∧ s.cache.blacklist.has c.now p.jti = false ∧
      s.db.user p.sub = some u ∧ u.isActive = true ∧ u.isSuperuser = true ∧ s' = s := by
  simp only [requireAdmin, isTokenBlacklisted, decodeAdminAccessToken, Handler.run_ofExcept_bind_ok,
    decodeFor_ok, Handler.run_lookup_bind, Handler.run_ensure_bind_ok, Handler.run_query_bind,
    Handler.run_orRaise_bind_ok, Handler.run_pure_ok]
  constructor
  · rintro ⟨p, ⟨hp, hExp, hAud⟩, hBlack, v, hv, hActive, hSuper, rfl, rfl⟩
    exact ⟨p, hp, hExp, hAud, hBlack, hv, hActive, hSuper, rfl⟩
  · rintro ⟨p, hp, hExp, hAud, hBlack, hv, hActive, hSuper, rfl⟩
    exact ⟨p, ⟨hp, hExp, hAud⟩, hBlack, u, hv, hActive, hSuper, rfl, rfl⟩

theorem requireAdmin_evolves (token : Bearer) :
    Handler.Within (Evolves c P) (requireAdmin c token) :=
  .bind (.ofExcept _) fun _ => .bind (.lookup _) fun _ => .bind (.ensure _ _) fun _ =>
    .bind (.query _) fun _ => .bind (.orRaise _ _) fun _ => .bind (.ensure _ _) fun _ =>
    .bind (.ensure _ _) fun _ => .pure _

theorem adminLogin_evolves (h : P .issue) (email password : String) :
    Handler.Within (Evolves c P) (adminLogin c email password) :=
  .bind (.query _) fun _ => .bind (.orRaise _ _) fun _ => .bind (.ensure _ _) fun _ =>
    .bind (.ensure _ _) fun _ => .bind (addRefreshToken_evolves h _) fun _ => .pure _

theorem adminRefresh_evolves (h : P .issue) (token : String) :
    Handler.Within (Evolves c P) (adminRefresh c token) :=
  .bind (.query _) fun _ => .bind (.orRaise _ _) fun _ => .ite
    (.bind (Evolves.deleteRefreshTokens _) fun _ => .throw _)
    (.bind (Evolves.deleteRefreshTokens _) fun _ => .bind (addRefreshToken_evolves h _) fun _ =>
      .pure _)

theorem adminLogout_evolves (token : String) (jti : Uuid) :
    Handler.Within (Evolves c P) (adminLogout c token jti) :=
  .bind (deleteIfFound_evolves token) fun _ => blacklistJti_evolves jti

theorem changeTenant_evolves (tenantId : Uuid) (refuse : Tenant → Bool) (error : PyError)
    {change : Tenant → Tenant} (hId : ∀ t, (change t).id = t.id) :
    Handler.Within (Evolves c P) (changeTenant tenantId refuse error change) :=
  .bind (.query _) fun _ => .bind (.orRaise _ _) fun _ => .bind (.ensure _ _) fun _ =>
    Evolves.updateTenant hId

theorem suspendTenant_evolves (tenantId : Uuid) :
    Handler.Within (Evolves c P) (suspendTenant c tenantId) :=
  .bind (changeTenant_evolves _ _ _ fun _ => rfl) fun _ => .bind (.query _) fun _ =>
    revokeSessionsOf_evolves _

theorem setBlocked_evolves (hP : P .tenancy) (userId tenantId : Uuid) (blocked : Bool) :
    Handler.Within (Evolves c P) (setBlocked userId tenantId blocked) :=
  .bind (.query _) fun _ => .bind (.orRaise _ _) fun _ =>
    Evolves.exec_tenancy hP fun _ => ⟨rfl, rfl, rfl, id⟩

theorem forcePasswordReset_evolves (userId : Uuid) :
    Handler.Within (Evolves c P) (forcePasswordReset c userId) :=
  .bind (.query _) fun _ => .bind (.orRaise _ _) fun _ =>
    .bind (Evolves.updateUser (fun _ => rfl) fun _ => rfl) fun _ =>
    .bind (revokeSessionsOf_evolves _) fun _ => .bind Evolves.flush fun _ => Evolves.enqueueJob _

/-! ### What the sessions issue -/

theorem adminLogin_ok {email password : String} {t : TokenResponse}
    (h : (adminLogin c email password).run s = .ok t s') :
    ∃ user, s.db.userByEmail email = some user ∧ user.isSuperuser = true ∧
      t = ⟨createAdminAccessToken c user.id, c.draws.refreshToken⟩ ∧
      s' = { s with db := s.db.addRefreshToken (newRefreshToken c user.id) } := by
  simp only [adminLogin, Handler.run_query_bind, Handler.run_orRaise_bind_ok,
    Handler.run_ensure_bind_ok, Handler.run_exec_bind, Handler.run_pure_ok] at h
  obtain ⟨user, hUser, hSuper, -, rfl, rfl⟩ := h
  exact ⟨user, hUser, hSuper, rfl, rfl⟩

theorem adminRefresh_ok {token : String} {t : TokenResponse}
    (h : (adminRefresh c token).run s = .ok t s') :
    ∃ row, s.db.refreshToken token = some row ∧ ¬row.expiresAt < c.now ∧
      t = ⟨createAdminAccessToken c row.userId, c.draws.refreshToken⟩ ∧
      s'.db = (s.db.deleteRefreshTokens fun r => r.id = row.id).addRefreshToken
        (newRefreshToken c row.userId) := by
  simp only [adminRefresh, adminRotate, Handler.run_query_bind, Handler.run_orRaise_bind_ok,
    Handler.run_ite_ok, Handler.run_exec_bind, Handler.run_throw_ok, Handler.run_pure_ok, and_false,
    false_or] at h
  obtain ⟨row, hRow, hLive, rfl, rfl⟩ := h
  exact ⟨row, hRow, hLive, rfl, rfl⟩

theorem adminLogin_issues (email password : String) :
    Issues c "wxcode-adm-admin" some (adminLogin c email password) := fun s t s' h => by
  obtain ⟨user, -, -, rfl, rfl⟩ := adminLogin_ok h
  refine ⟨?_, by simp⟩
  rintro _ ⟨rfl⟩
  exact .of_add rfl rfl (List.Subset.refl _)

theorem adminRefresh_issues (token : String) :
    Issues c "wxcode-adm-admin" some (adminRefresh c token) := fun s t s' h => by
  obtain ⟨row, -, -, rfl, hDb⟩ := adminRefresh_ok h
  refine ⟨?_, by simp⟩
  rintro _ ⟨rfl⟩
  exact .of_add rfl (by rw [hDb]; rfl) (List.filter_sublist.subset)

end WxcodeAdm
