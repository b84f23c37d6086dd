import WxcodeAdm.Auth.Tokens

/-! `tenants/exceptions.py` and `tenants/dependencies.py`: the tenant that a request names and the
role of the caller in it. -/

namespace WxcodeAdm

open Lib

namespace PyError

def noTenantContext : PyError :=
  forbidden "TENANT_CONTEXT_REQUIRED" <|
    "This endpoint requires a tenant context. Include X-Tenant-ID header " ++
      "or complete workspace setup at POST /api/v1/onboarding/workspace."

def tenantNotFound : PyError :=
  notFound "TENANT_NOT_FOUND" "Tenant not found or you are not a member"

def insufficientRole (message : String) : PyError := forbidden "INSUFFICIENT_ROLE" message

def notMember : PyError := forbidden "NOT_MEMBER" "You are not a member of this tenant"

def ownerCannotSelfDemote : PyError :=
  forbidden "OWNER_CANNOT_SELF_DEMOTE" "Transfer ownership first before changing your own role"

def ownerCannotLeave : PyError :=
  forbidden "OWNER_CANNOT_LEAVE" "Transfer ownership before leaving the tenant"

def invitationAlreadyExists : PyError :=
  conflict "INVITATION_ALREADY_EXISTS"
    "An active invitation already exists for this email in this tenant"

def alreadyMember : PyError := conflict "ALREADY_MEMBER" "User is already a member of this tenant"

def transferAlreadyPending : PyError :=
  conflict "TRANSFER_ALREADY_PENDING" "An ownership transfer is already pending for this tenant"

end PyError

variable (c : Ctx)

/-- A tenant named by id, or by slug where the header is no UUID. -/
def resolveTenant (xTenantId : String) (db : Db) : Option Tenant :=
  match c.lib.parseUuid xTenantId with
  | some id => db.tenant id
  | none => db.tenantBySlug xTenantId

def getTenantContext (token : Bearer) (xTenantId : Option String) :
    App (Tenant × TenantMembership) := do
  let user ← requireVerified c token
  let header ← .orRaise xTenantId .noTenantContext
  let found ← .query (resolveTenant c header)
  let tenant ← .orRaise found .tenantNotFound
  .ensure (tenant.isDeleted = false) .tenantNotFound
  .ensure (tenant.isSuspended = false)
    (.forbidden "TENANT_SUSPENDED" "This tenant account has been suspended")
  let row ← .query fun db => db.membership user.id tenant.id
  let membership ← .orRaise row .tenantNotFound
  .ensure (membership.isBlocked = false)
    (.forbidden "USER_BLOCKED" "Your access to this tenant has been blocked")
  return (tenant, membership)

def requireRole (minimumRole : MemberRole) (token : Bearer) (xTenantId : Option String) :
    App (Tenant × TenantMembership) := do
  let ctx ← getTenantContext c token xTenantId
  .ensure (minimumRole.level ≤ ctx.2.role.level)
    (.insufficientRole ("Requires " ++ minimumRole.value ++ " role or above"))
  return ctx

def requireTenantMember (token : Bearer) (xTenantId : Option String) :
    App (Tenant × TenantMembership) :=
  getTenantContext c token xTenantId

/-- `require_billing_access` of `billing/router.py` -/
def requireBillingAccess (token : Bearer) (xTenantId : Option String) :
    App (Tenant × TenantMembership) := do
  let ctx ← getTenantContext c token xTenantId
  .ensure (ctx.2.billingAccess = true ∨ ctx.2.role = .owner)
    (.forbidden "BILLING_ACCESS_REQUIRED" "Billing access required")
  return ctx

variable {c} {s s' : World} {P : Power → Prop}

theorem getTenantContext_evolves (token : Bearer) (xTenantId : Option String) :
    Handler.Within (Evolves c P) (getTenantContext c token xTenantId) :=
  .bind (requireVerified_evolves token) fun _ => .bind (.orRaise _ _) fun _ =>
    .bind (.query _) fun _ => .bind (.orRaise _ _) fun _ => .bind (.ensure _ _) fun _ =>
    .bind (.ensure _ _) fun _ => .bind (.query _) fun _ => .bind (.orRaise _ _) fun _ =>
    .bind (.ensure _ _) fun _ => .pure _

theorem requireRole_evolves (role : MemberRole) (token : Bearer) (xTenantId : Option String) :
    Handler.Within (Evolves c P) (requireRole c role token xTenantId) :=
  .bind (getTenantContext_evolves token xTenantId) fun _ => .bind (.ensure _ _) fun _ => .pure _

theorem requireBillingAccess_evolves (token : Bearer) (xTenantId : Option String) :
    Handler.Within (Evolves c P) (requireBillingAccess c token xTenantId) :=
  .bind (getTenantContext_evolves token xTenantId) fun _ => .bind (.ensure _ _) fun _ => .pure _

theorem requireVerified_ok {token : Bearer} {u : User}
    (h : (requireVerified c token).run s = .ok u s') :
    s'.db = s.db ∧ s.db.user u.id = some u ∧ u.emailVerified = true := by
  obtain ⟨v, m, hCurrent, h⟩ := Handler.run_bind_ok.mp h
  obtain ⟨p, -, -, -, -, hUser, -, -, rfl⟩ := getCurrentUser_ok.mp hCurrent
  simp only [Handler.run_ensure_bind_ok, Handler.run_pure_ok] at h
  obtain ⟨hVerified, rfl, rfl⟩ := h
  have hId : v.id = p.sub := by simpa using List.find?_some hUser
  exact ⟨rfl, hId ▸ hUser, hVerified⟩

/-- A request that passes the guard is of a member, in a tenant that exists. -/
theorem getTenantContext_ok {token : Bearer} {xTenantId : Option String} {t : Tenant}
    {m : TenantMembership} (h : (getTenantContext c token xTenantId).run s = .ok (t, m) s') :
    s'.db = s.db ∧ t ∈ s.db.tenants ∧ s.db.membership m.userId t.id = some m ∧
      m.tenantId = t.id := by
  obtain ⟨u, s₁, hUser, h⟩ := Handler.run_bind_ok.mp h
  simp only [Handler.run_orRaise_bind_ok, Handler.run_query_bind, Handler.run_ensure_bind_ok,
    Handler.run_pure_ok, Prod.mk.injEq] at h
  obtain ⟨_, -, t', hTenant, -, -, m', hMember, -, ⟨rfl, rfl⟩, rfl⟩ := h
  obtain ⟨hDb, -, -⟩ := requireVerified_ok hUser
  rw [hDb] at hTenant hMember
  have hKey : m'.userId = u.id ∧ m'.tenantId = t'.id := by simpa using List.find?_some hMember
  refine ⟨hDb, ?_, hKey.1.symm ▸ hMember, hKey.2⟩
  unfold resolveTenant at hTenant
  split at hTenant <;> exact List.mem_of_find?_eq_some hTenant

theorem requireRole_ok {role : MemberRole} {token : Bearer} {xTenantId : Option String} {t : Tenant}
    {m : TenantMembership} (h : (requireRole c role token xTenantId).run s = .ok (t, m) s') :
    s'.db = s.db ∧ t ∈ s.db.tenants ∧ s.db.membership m.userId t.id = some m ∧
      m.tenantId = t.id ∧ role.level ≤ m.role.level := by
  obtain ⟨⟨t', m'⟩, s₁, hCtx, h⟩ := Handler.run_bind_ok.mp h
  simp only [Handler.run_ensure_bind_ok, Handler.run_pure_ok, Prod.mk.injEq] at h
  obtain ⟨hRole, ⟨rfl, rfl⟩, rfl⟩ := h
  obtain ⟨hDb, hTenant, hMember, hId⟩ := getTenantContext_ok hCtx
  exact ⟨hDb, hTenant, hMember, hId, hRole⟩

theorem requireBillingAccess_db {token : Bearer} {xTenantId : Option String}
    {ctx : Tenant × TenantMembership}
    (h : (requireBillingAccess c token xTenantId).run s = .ok ctx s') : s'.db = s.db := by
  obtain ⟨⟨tenant, member⟩, m, hContext, h⟩ := Handler.run_bind_ok.mp h
  simp only [Handler.run_ensure_bind_ok, Handler.run_pure_ok] at h
  obtain ⟨-, -, rfl⟩ := h
  exact (getTenantContext_ok hContext).1

end WxcodeAdm
