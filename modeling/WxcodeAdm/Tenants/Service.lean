import WxcodeAdm.Billing.Service
import WxcodeAdm.Tenants.Guards

/-! `tenants/service.py`: workspaces, members, ownership transfers and invitations. -/

namespace WxcodeAdm

open Lib

/-- A role that the request schemas accept: any but `owner`. -/
structure RequestedRole where
  role : MemberRole
  notOwner : role ≠ .owner

theorem MemberRole.viewer_ne_owner : MemberRole.viewer ≠ .owner := by decide

structure InviteRequest where
  email : String
  role : RequestedRole
  billingAccess : Bool := false

structure ChangeRoleRequest where
  role : RequestedRole
  billingAccess : Option Bool := none

variable (c : Ctx)

/-! ### Workspaces -/

def slugCandidates (base : String) : List String :=
  base :: (List.range' 2 9).map fun counter => base ++ "-" ++ toString counter

def generateUniqueSlug (name : PyStr) : App String := do
  let slug := c.lib.slugify name
  let base := if slug = "" then "workspace" else slug
  let free ← .query fun db => (slugCandidates base).find? fun slug => (db.tenantBySlug slug).isNone
  .orRaise free
    (.conflict "SLUG_UNAVAILABLE" "Workspace name is too common, try a different one")

/-- The name is encoded by the flush of its tenant. -/
def createWorkspace (user : User) (name : PyStr) : App (Tenant × TenantMembership) := do
  let slug ← generateUniqueSlug c name
  let name ← .orRaise name.text? (.other "DBAPIError")
  let tenant : Tenant := { id := c.draws.tenantId, name, slug }
  .exec fun db => { db with tenants := db.tenants ++ [tenant] }
  flush
  let membership : TenantMembership :=
    { id := c.draws.membershipIds 0, userId := user.id, tenantId := tenant.id, role := .owner,
      billingAccess := true, createdAt := c.now }
  .exec fun db => { db with memberships := db.memberships ++ [membership] }
  flush
  bootstrapFreeSubscription tenant.id c.draws.stripeCustomerId
  return (tenant, membership)

/-! ### Members -/

def memberNotFound (message : String) : PyError := .notFound "MEMBER_NOT_FOUND" message

/-- A row that a SELECT finds, as the session has it: the one that was loaded before keeps the
values it was loaded with. -/
def asLoaded (loaded : TenantMembership) (row : Option TenantMembership) :
    Option TenantMembership :=
  row.map fun m => if m.id = loaded.id then loaded else m

def changeRole (tenant : Tenant) (actor : TenantMembership) (targetUserId : Uuid)
    (newRole : MemberRole) (billingAccess : Option Bool) : App TenantMembership := do
  let found ← .query fun db => db.membership targetUserId tenant.id
  let target ← .orRaise (asLoaded actor found) (memberNotFound "Member not found in this tenant")
  .ensure (¬(target.role = .owner ∧ target.userId = actor.userId)) .ownerCannotSelfDemote
  .ensure (¬(target.role = .owner ∧ actor.role ≠ .owner))
    (.insufficientRole "Only the Owner can change the Owner's role")
  .ensure (newRole ≠ .owner)
    (.forbidden "USE_TRANSFER" "Use ownership transfer to assign Owner role")
  let changed := { target with
    role := newRole, billingAccess := billingAccess.getD target.billingAccess }
  .exec fun db => db.saveMembership target changed
  return changed

def removeMember (tenant : Tenant) (actor : TenantMembership) (targetUserId : Uuid) :
    App Unit := do
  .ensure (targetUserId ≠ actor.userId)
    (.forbidden "USE_LEAVE" "Use the leave endpoint to remove yourself")
  let found ← .query fun db => db.membership targetUserId tenant.id
  let target ← .orRaise found (memberNotFound "Member not found")
  .ensure (target.role ≠ .owner)
    (.forbidden "CANNOT_REMOVE_OWNER" "Cannot remove the tenant Owner")
  .exec fun db => db.deleteMembership target.id

/-- `leave_tenant`, where the guard of the route has loaded the membership. -/
def leaveTenant (loaded : TenantMembership) (tenantId userId : Uuid) : App Unit := do
  let found ← .query fun db => db.membership userId tenantId
  let membership ← .orRaise (asLoaded loaded found) .notMember
  .ensure (membership.role ≠ .owner) .ownerCannotLeave
  .exec fun db => db.deleteMembership membership.id

/-! ### Ownership transfers -/

/-- Deletes the transfer of a tenant if it has expired, and raises if it has not. -/
def clearStaleTransfer (tenantId : Uuid) : App Unit := do
  match ← .query fun db => db.transferOf tenantId with
  | none => pure ()
  | some existing =>
    .ensure (¬c.now < existing.expiresAt) .transferAlreadyPending
    .exec fun db => db.deleteTransfers fun x => x.id = existing.id
    flush

def initiateTransfer (tenant : Tenant) (ownerMembership : TenantMembership) (toUserId : Uuid) :
    App OwnershipTransfer := do
  .ensure (ownerMembership.role = .owner)
    (.insufficientRole "Only the Owner can initiate ownership transfer")
  .ensure (toUserId ≠ ownerMembership.userId)
    (.forbidden "CANNOT_TRANSFER_TO_SELF" "Cannot transfer ownership to yourself")
  let target ← .query fun db => db.membership toUserId tenant.id
  .ensure (target.isSome = true)
    (memberNotFound "Target user is not a member of this tenant")
  clearStaleTransfer c tenant.id
  let transfer : OwnershipTransfer :=
    { id := c.draws.transferId, tenantId := tenant.id, fromUserId := ownerMembership.userId,
      toUserId, expiresAt := c.now + days 7 }
  .exec fun db => { db with transfers := db.transfers ++ [transfer] }
  flush
  return transfer

/-- Swaps the two roles, under two independent tests: either membership may be missing. -/
def swapOwner (tenantId userId : Uuid) (transfer : OwnershipTransfer) : App Unit := do
  let fromMembership ← .query fun db => db.membership transfer.fromUserId tenantId
  let toMembership ← .query fun db => db.membership userId tenantId
  .exec fun db => db.setRole fromMembership .admin
  .exec fun db => db.setRole toMembership .owner
  .exec fun db => db.deleteTransfers fun x => x.id = transfer.id

def acceptTransfer (tenantId userId : Uuid) : App Unit := do
  let found ← .query fun db => db.transfers.find? fun x => x.tenantId = tenantId ∧
    x.toUserId = userId
  let transfer ← .orRaise found
    (.notFound "TRANSFER_NOT_FOUND" "No pending ownership transfer found for you")
  if transfer.expiresAt < c.now then
    .exec fun db => db.deleteTransfers fun x => x.id = transfer.id
    .throw .tokenExpired
  else swapOwner tenantId userId transfer

def getPendingTransfer (tenantId : Uuid) : App (Option OwnershipTransfer) := do
  match ← .query fun db => db.transferOf tenantId with
  | none => pure none
  | some transfer =>
    if transfer.expiresAt ≤ c.now then
      .exec fun db => db.deleteTransfers fun x => x.id = transfer.id
      return none
    else return some transfer

/-! ### Invitations -/

def invitationSalt : String := "tenant-invitation"

def inviteUser (tenant : Tenant) (membership : TenantMembership) (body : InviteRequest) :
    App Invitation := do
  .ensure (MemberRole.admin.level ≤ membership.role.level)
    (.insufficientRole "Only Admins and Owners can invite users")
  let member ← .query fun db => (db.userByEmail body.email).any fun u =>
    (db.membership u.id tenant.id).isSome
  .ensure (member = false) .alreadyMember
  let pending ← .query fun db => db.invitations.any fun i => i.email = body.email ∧
    i.tenantId = tenant.id ∧ i.acceptedAt = none ∧ c.now < i.expiresAt
  .ensure (pending = false) .invitationAlreadyExists
  let token := TimedToken.dumps c invitationSalt { email := body.email, tenantId := tenant.id }
  let invitation : Invitation :=
    { id := c.draws.invitationId, email := body.email, tenantId := tenant.id,
      role := body.role.role, billingAccess := body.billingAccess,
      tokenHash := c.lib.sha256 (c.lib.invitationText token), invitedById := membership.userId,
      expiresAt := c.now + days 7 }
  .exec fun db => { db with invitations := db.invitations ++ [invitation] }
  flush
  enqueueJob (.sendInvitationEmail body.email tenant.name token body.role.role)
  return invitation

def invitedMembership (index : Nat) (user : User) (invitation : Invitation) :
    TenantMembership where
  id := c.draws.membershipIds index
  userId := user.id
  tenantId := invitation.tenantId
  role := invitation.role
  billingAccess := invitation.billingAccess
  invitedById := some invitation.invitedById
  createdAt := c.now

def Db.join (db : Db) (now : Nat) (membership : TenantMembership) (invitation : Invitation) : Db :=
  { db with
    memberships := db.memberships ++ [membership]
    invitations := db.invitations.map fun i =>
      if i.id = invitation.id then { i with acceptedAt := some now } else i }

theorem Db.join_invitesNoOwner {db : Db} (h : db.InvitesNoOwner) (now : Nat)
    (membership : TenantMembership) (invitation : Invitation) :
    (db.join now membership invitation).InvitesNoOwner := fun i hi => by
  simp only [Db.join, List.mem_map] at hi
  obtain ⟨j, hj, rfl⟩ := hi
  split <;> exact h j hj

def acceptInvitation (user : User) (token : TimedToken InvitationPayload) :
    App TenantMembership := do
  let payload ← .ofExcept (token.loads c invitationSalt (7 * 24 * 3600))
  .ensure (payload.email = user.email)
    (.forbidden "INVITATION_EMAIL_MISMATCH"
      "This invitation was sent to a different email address")
  let rows ← .query fun db => db.invitations.filter fun i =>
    i.tokenHash = c.lib.sha256 (c.lib.invitationText token)
  let found ← .orRaise (scalarOneOrNone rows) .multipleResultsFound
  let invitation ← .orRaise found .invalidToken
  .ensure (invitation.acceptedAt = none)
    (.conflict "INVITATION_ALREADY_ACCEPTED" "This invitation has already been accepted")
  .ensure (¬invitation.expiresAt < c.now) .tokenExpired
  let member ← .query fun db => db.membership user.id invitation.tenantId
  .ensure (member.isSome = false) .alreadyMember
  let membership := invitedMembership c 0 user invitation
  .exec fun db => db.join c.now membership invitation
  flush
  return membership

/-- One round of the loop of `auto_join_pending_invitations`, with the memberships made so far. -/
def autoJoin (user : User) (acc : Db × List TenantMembership) (invitation : Invitation) :
    Db × List TenantMembership :=
  if invitation.expiresAt ≤ c.now ∨ (acc.1.membership user.id invitation.tenantId).isSome then acc
  else
    let membership := invitedMembership c acc.2.length user invitation
    (acc.1.join c.now membership invitation, acc.2 ++ [membership])

/-- The loop over the invitations of the address that are not accepted. -/
def autoJoinAll (user : User) (db : Db) : Db × List TenantMembership :=
  (db.invitations.filter fun i => i.email = user.email ∧ i.acceptedAt = none).foldl
    (autoJoin c user) (db, [])

def autoJoinPendingInvitations (user : User) : App (List TenantMembership) := do
  let joined ← .query fun db => (autoJoinAll c user db).2
  .exec fun db => (autoJoinAll c user db).1
  flush
  return joined

def cancelInvitation (tenantId invitationId : Uuid) : App Unit := do
  let found ← .query fun db => db.invitations.find? fun i => i.id = invitationId ∧
    i.tenantId = tenantId
  let invitation ← .orRaise found (.notFound "INVITATION_NOT_FOUND" "Invitation not found")
  .ensure (invitation.acceptedAt = none)
    (.conflict "INVITATION_ALREADY_ACCEPTED" "Cannot cancel an accepted invitation")
  .exec fun db => { db with invitations := db.invitations.filter fun i => i.id ≠ invitation.id }

/-! ### MFA enforcement -/

def enableMfaEnforcement (tenant : Tenant) (actorUser : User) : App Unit := do
  .ensure actorUser.mfaEnabled .mfaRequired
  .exec fun db => db.updateTenant tenant.id fun t => { t with mfaEnforced := true }
  let nonMfaUserIds ← .query fun db => (db.memberIds tenant.id).filter fun id =>
    (db.user id).any fun u => !u.mfaEnabled
  .exec fun db => db.deleteRefreshTokens fun r => r.userId ∈ nonMfaUserIds

def disableMfaEnforcement (tenant : Tenant) : App Unit :=
  .exec fun db => db.updateTenant tenant.id fun t => { t with mfaEnforced := false }

def getEnforcingTenantsForUser (userId : Uuid) (db : Db) : List Uuid :=
  (db.tenants.filter fun t => t.mfaEnforced ∧ (db.membership userId t.id).isSome).map fun t => t.id

/-! ### Evolution -/

variable {c} {P : Power → Prop}

theorem generateUniqueSlug_evolves (name : PyStr) :
    Handler.Within (Evolves c P) (generateUniqueSlug c name) :=
  .bind (.query _) fun _ => .orRaise _ _

theorem createWorkspace_evolves (hP : P .tenancy) (user : User) (name : PyStr) :
    Handler.Within (Evolves c P) (createWorkspace c user name) :=
  .bind (generateUniqueSlug_evolves name) fun _ => .bind (.orRaise _ _) fun _ =>
    .bind (Evolves.exec_tenancy hP fun _ => ⟨rfl, rfl, rfl, id⟩) fun _ => .bind Evolves.flush fun _ =>
    .bind (Evolves.exec_tenancy hP fun _ => ⟨rfl, rfl, rfl, id⟩) fun _ => .bind Evolves.flush fun _ =>
    .bind (bootstrapFreeSubscription_evolves _ _) fun _ => .pure _

theorem changeRole_evolves (hP : P .tenancy) (tenant : Tenant) (actor : TenantMembership)
    (target : Uuid) (role : MemberRole) (billing : Option Bool) :
    Handler.Within (Evolves c P) (changeRole tenant actor target role billing) :=
  .bind (.query _) fun _ => .bind (.orRaise _ _) fun _ => .bind (.ensure _ _) fun _ =>
    .bind (.ensure _ _) fun _ => .bind (.ensure _ _) fun _ =>
    .bind (Evolves.exec_tenancy hP fun db => by
      unfold Db.saveMembership
      split <;> exact ⟨rfl, rfl, rfl, id⟩) fun _ => .pure _

theorem removeMember_evolves (hP : P .tenancy) (tenant : Tenant) (actor : TenantMembership)
    (target : Uuid) : Handler.Within (Evolves c P) (removeMember tenant actor target) :=
  .bind (.ensure _ _) fun _ => .bind (.query _) fun _ => .bind (.orRaise _ _) fun _ =>
    .bind (.ensure _ _) fun _ => Evolves.exec_tenancy hP fun _ => ⟨rfl, rfl, rfl, id⟩

theorem leaveTenant_evolves (hP : P .tenancy) (loaded : TenantMembership) (tenantId userId : Uuid) :
    Handler.Within (Evolves c P) (leaveTenant loaded tenantId userId) :=
  .bind (.query _) fun _ => .bind (.orRaise _ _) fun _ => .bind (.ensure _ _) fun _ =>
    Evolves.exec_tenancy hP fun _ => ⟨rfl, rfl, rfl, id⟩

theorem initiateTransfer_evolves (hP : P .tenancy) (tenant : Tenant) (owner : TenantMembership)
    (toUserId : Uuid) : Handler.Within (Evolves c P) (initiateTransfer c tenant owner toUserId) :=
  .bind (.ensure _ _) fun _ => .bind (.ensure _ _) fun _ => .bind (.query _) fun _ =>
    .bind (.ensure _ _) fun _ => .bind (.bind (.query _) fun existing => by
      cases existing with
      | none => exact .pure _
      | some _ =>
        exact .bind (.ensure _ _) fun _ =>
          .bind (Evolves.exec_tenancy hP fun _ => ⟨rfl, rfl, rfl, id⟩) fun _ => Evolves.flush) fun _ =>
    .bind (Evolves.exec_tenancy hP fun _ => ⟨rfl, rfl, rfl, id⟩) fun _ => .bind Evolves.flush fun _ =>
    .pure _

theorem setRole_evolves (hP : P .tenancy) (membership : Option TenantMembership)
    (role : MemberRole) :
    Handler.Within (Evolves c P) (.exec fun db => db.setRole membership role : App Unit) := by
  cases membership <;> exact Evolves.exec_tenancy hP fun _ => ⟨rfl, rfl, rfl, id⟩

theorem acceptTransfer_evolves (hP : P .tenancy) (tenantId userId : Uuid) :
    Handler.Within (Evolves c P) (acceptTransfer c tenantId userId) :=
  .bind (.query _) fun _ => .bind (.orRaise _ _) fun _ =>
    .ite (.bind (Evolves.exec_tenancy hP fun _ => ⟨rfl, rfl, rfl, id⟩) fun _ => .throw _) <|
    .bind (.query _) fun _ => .bind (.query _) fun _ => .bind (setRole_evolves hP _ _) fun _ =>
    .bind (setRole_evolves hP _ _) fun _ => Evolves.exec_tenancy hP fun _ => ⟨rfl, rfl, rfl, id⟩

theorem getPendingTransfer_evolves (hP : P .tenancy) (tenantId : Uuid) :
    Handler.Within (Evolves c P) (getPendingTransfer c tenantId) :=
  .bind (.query _) fun existing => by
    cases existing with
    | none => exact .pure _
    | some _ =>
      exact .ite (.bind (Evolves.exec_tenancy hP fun _ => ⟨rfl, rfl, rfl, id⟩) fun _ => .pure _)
        (.pure _)

theorem inviteUser_evolves (hP : P .tenancy) (tenant : Tenant) (membership : TenantMembership)
    (body : InviteRequest) :
    Handler.Within (Evolves c P) (inviteUser c tenant membership body) := by
  refine .bind (.ensure _ _) fun _ => .bind (.query _) fun _ => .bind (.ensure _ _) fun _ =>
    .bind (.query _) fun _ => .bind (.ensure _ _) fun _ =>
    .bind (Evolves.exec_tenancy hP fun _ => ⟨rfl, rfl, rfl, fun h => ?_⟩) fun _ =>
    .bind Evolves.flush fun _ => .bind (Evolves.enqueueJob _) fun _ => .pure _
  intro i hi
  rcases List.mem_append.mp hi with hi | hi
  · exact h i hi
  · exact List.mem_singleton.mp hi ▸ body.role.notOwner

theorem acceptInvitation_evolves (hP : P .tenancy) (user : User)
    (token : TimedToken InvitationPayload) :
    Handler.Within (Evolves c P) (acceptInvitation c user token) :=
  .bind (.ofExcept _) fun _ => .bind (.ensure _ _) fun _ => .bind (.query _) fun _ =>
    .bind (.orRaise _ _) fun _ => .bind (.orRaise _ _) fun _ => .bind (.ensure _ _) fun _ =>
    .bind (.ensure _ _) fun _ => .bind (.query _) fun _ => .bind (.ensure _ _) fun _ =>
    .bind (Evolves.exec_tenancy hP fun _ =>
      ⟨rfl, rfl, rfl, fun h => Db.join_invitesNoOwner h _ _ _⟩) fun _ => .bind Evolves.flush fun _ =>
    .pure _

theorem cancelInvitation_evolves (hP : P .tenancy) (tenantId invitationId : Uuid) :
    Handler.Within (Evolves c P) (cancelInvitation tenantId invitationId) :=
  .bind (.query _) fun _ => .bind (.orRaise _ _) fun _ => .bind (.ensure _ _) fun _ =>
    Evolves.exec_tenancy hP fun _ =>
      ⟨rfl, rfl, rfl, fun h i hi => h i (List.mem_filter.mp hi).1⟩

theorem autoJoinAll_frame (user : User) (db : Db) :
    (autoJoinAll c user db).1.users = db.users ∧
      (autoJoinAll c user db).1.refreshTokens = db.refreshTokens ∧
      (autoJoinAll c user db).1.trustedDevices = db.trustedDevices ∧
      (db.InvitesNoOwner → (autoJoinAll c user db).1.InvitesNoOwner) := by
  unfold autoJoinAll
  generalize (db.invitations.filter fun i => _) = pending
  refine List.foldlRecOn pending (autoJoin c user) (motive := fun acc : Db × _ =>
    acc.1.users = db.users ∧ acc.1.refreshTokens = db.refreshTokens ∧
      acc.1.trustedDevices = db.trustedDevices ∧ (db.InvitesNoOwner → acc.1.InvitesNoOwner))
    ⟨rfl, rfl, rfl, id⟩ fun acc h i _ => ?_
  obtain ⟨hUsers, hTokens, hDevices, hInvitations⟩ := h
  unfold autoJoin
  split
  · exact ⟨hUsers, hTokens, hDevices, hInvitations⟩
  · exact ⟨hUsers, hTokens, hDevices, fun h => Db.join_invitesNoOwner (hInvitations h) _ _ _⟩

theorem autoJoinPendingInvitations_evolves (hP : P .tenancy) (user : User) :
    Handler.Within (Evolves c P) (autoJoinPendingInvitations c user) :=
  .bind (.query _) fun _ => .bind (Evolves.exec_tenancy hP (autoJoinAll_frame user)) fun _ =>
    .bind Evolves.flush fun _ => .pure _

theorem enableMfaEnforcement_evolves (tenant : Tenant) (actor : User) :
    Handler.Within (Evolves c P) (enableMfaEnforcement tenant actor) :=
  .bind (.ensure _ _) fun _ => .bind (Evolves.updateTenant fun _ => rfl) fun _ =>
    .bind (.query _) fun _ => Evolves.deleteRefreshTokens _

theorem disableMfaEnforcement_evolves (tenant : Tenant) :
    Handler.Within (Evolves c P) (disableMfaEnforcement tenant) :=
  Evolves.updateTenant fun _ => rfl

end WxcodeAdm
