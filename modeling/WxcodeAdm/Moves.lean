import WxcodeAdm.Footprint
import WxcodeAdm.Guarantees.Ownership

/-! What a request does to the members, the transfers and the invitations of the tenants, said once
for all requests: a committed request makes one of the moves below, with what the code has checked
before it, and any other leaves the three tables as they are. -/

namespace WxcodeAdm

open Lib

/-- The caller has passed `get_tenant_context`, and has the role. -/
structure Acts (c : Ctx) (w : World) (token : Bearer) (header : Option String)
    (minimum : MemberRole) (tenant : Tenant) (actor : TenantMembership) : Prop where
  guard : ∃ m, (getTenantContext c token header).run w = .ok (tenant, actor) m
  known : tenant ∈ w.db.tenants
  row : w.db.membership actor.userId tenant.id = some actor
  level : minimum.level ≤ actor.role.level

theorem Acts.mem {c : Ctx} {w : World} {token : Bearer} {header : Option String}
    {minimum : MemberRole} {tenant : Tenant} {actor : TenantMembership}
    (h : Acts c w token header minimum tenant actor) :
    actor ∈ w.db.memberships ∧ actor.tenantId = tenant.id :=
  ⟨(Db.membership_mem h.row).1, (Db.membership_mem h.row).2.2⟩

/-- The members, transfers and invitations. -/
def Db.team (db : Db) :
    List TenantMembership × List OwnershipTransfer × List Invitation :=
  (db.memberships, db.transfers, db.invitations)

theorem Db.team_of_tenancy {db db' : Db} (h : db'.tenancy = db.tenancy) : db'.team = db.team := by
  simp only [Db.tenancy, Prod.mk.injEq] at h
  simp only [Db.team, h]

/-- What `change_role` makes of a row. -/
def ChangeRoleRequest.changed (body : ChangeRoleRequest) (target : TenantMembership) :
    TenantMembership :=
  { target with
    role := body.role.role, billingAccess := body.billingAccess.getD target.billingAccess }

/-- What `initiate_transfer` adds. -/
def offeredTransfer (c : Ctx) (tenant : Tenant) (owner : TenantMembership) (toUserId : Uuid) :
    OwnershipTransfer where
  id := c.draws.transferId
  tenantId := tenant.id
  fromUserId := owner.userId
  toUserId := toUserId
  expiresAt := c.now + days 7

/-- What `invite_user` adds. -/
def invitationFor (c : Ctx) (tenant : Tenant) (membership : TenantMembership)
    (body : InviteRequest) : Invitation where
  id := c.draws.invitationId
  email := body.email
  tenantId := tenant.id
  role := body.role.role
  billingAccess := body.billingAccess
  tokenHash := c.lib.sha256 (c.lib.invitationText
    (TimedToken.dumps c invitationSalt { email := body.email, tenantId := tenant.id }))
  invitedById := membership.userId
  expiresAt := c.now + days 7

/-- What `accept_invitation` has checked of an invitation that it redeems. -/
structure Db.Redeems (c : Ctx) (db : Db) (user : User) (token : TimedToken InvitationPayload)
    (invitation : Invitation) : Prop where
  row : db.user user.id = some user
  signed : ∃ payload, token.loads c invitationSalt (7 * 24 * 3600) = .ok payload ∧
    payload.email = user.email
  mem : invitation ∈ db.invitations
  hash : invitation.tokenHash = c.lib.sha256 (c.lib.invitationText token)
  pending : invitation.acceptedAt = none
  live : c.now ≤ invitation.expiresAt
  newcomer : db.membership user.id invitation.tenantId = none

/-- A move of the team by a request. -/
inductive Move (c : Ctx) (w w' : World) : Request → Prop
  | idle {r} (after : w'.db.team = w.db.team) : Move c w w' r
  | founds {token name user tenant membership}
      (guard : ∃ m, (requireVerified c token).run w = .ok user m)
      (new : ¬w.db.HasTenant tenant.id) (creator : membership.userId = user.id)
      (inTenant : membership.tenantId = tenant.id) (role : membership.role = .owner)
      (tenants : w'.db.tenants = w.db.tenants ++ [tenant])
      (after : w'.db.team =
        ({ w.db with memberships := w.db.memberships ++ [membership] } : Db).team) :
      Move c w w' (.createWorkspace token name)
  | changesRole {token header userId body tenant actor target}
      (acts : Acts c w token header .admin tenant actor)
      (found : w.db.membership userId tenant.id = some target)
      (self : ¬(target.role = .owner ∧ target.userId = actor.userId))
      (demotes : ¬(target.role = .owner ∧ actor.role ≠ .owner))
      (after : w'.db.team = (w.db.saveMembership target (body.changed target)).team) :
      Move c w w' (.changeMemberRole token header userId body)
  | removes {token header userId tenant actor target}
      (acts : Acts c w token header .admin tenant actor) (other : userId ≠ actor.userId)
      (found : w.db.membership userId tenant.id = some target) (role : target.role ≠ .owner)
      (after : w'.db.team = (w.db.deleteMembership target.id).team) :
      Move c w w' (.removeMember token header userId)
  | leaves {token header tenant member} (acts : Acts c w token header member.role tenant member)
      (role : member.role ≠ .owner) (after : w'.db.team = (w.db.deleteMembership member.id).team) :
      Move c w w' (.leaveTenant token header)
  | offers {token header toUserId tenant actor target kept}
      (acts : Acts c w token header .owner tenant actor) (other : toUserId ≠ actor.userId)
      (found : w.db.membership toUserId tenant.id = some target)
      (sub : kept ⊆ w.db.transfers) (sole : ∀ x ∈ kept, x.tenantId ≠ tenant.id)
      (after : w'.db.team =
        ({ w.db with transfers := kept ++ [offeredTransfer c tenant actor toUserId] } : Db).team) :
      Move c w w' (.initiateTransfer token header toUserId)
  | accepts {token header tenant member transfer}
      (acts : Acts c w token header member.role tenant member)
      (mem : transfer ∈ w.db.transfers) (inTenant : transfer.tenantId = tenant.id)
      (target : transfer.toUserId = member.userId) (live : c.now ≤ transfer.expiresAt)
      (after : w'.db.team = (((w.db.setRole (w.db.membership transfer.fromUserId tenant.id)
        .admin).setRole (some member) .owner).deleteTransfers fun x => x.id = transfer.id).team) :
      Move c w w' (.acceptTransfer token header)
  | invites {token header body tenant actor} (acts : Acts c w token header .admin tenant actor)
      (after : w'.db.team =
        ({ w.db with
            invitations := w.db.invitations ++ [invitationFor c tenant actor body] } : Db).team) :
      Move c w w' (.createInvitation token header body)
  | cancels {token header invitationId tenant actor}
      (acts : Acts c w token header .admin tenant actor)
      (found : ∃ i ∈ w.db.invitations, i.id = invitationId ∧ i.acceptedAt = none)
      (after : w'.db.team =
        ({ w.db with invitations := w.db.invitations.filter fun i => i.id ≠ invitationId } : Db).team) :
      Move c w w' (.cancelInvitation token header invitationId)
  | redeems {bearer token user invitation}
      (guard : ∃ m, (requireVerified c bearer).run w = .ok user m)
      (checked : w.db.Redeems c user token invitation)
      (after : w'.db.team =
        (w.db.join c.now (invitedMembership c 0 user invitation) invitation).team) :
      Move c w w' (.acceptInvitation bearer token)
  | autoJoins {email code user} (found : w.db.userByEmail email = some user)
      (unverified : user.emailVerified = false)
      (accepted : w.cache.otp.get c.now user.id = some code)
      (after : w'.db.team = (autoJoinAll c user w.db).1.team) : Move c w w' (.verifyEmail email code)
  | blocks {r member blocked} (mem : member ∈ w.db.memberships)
      (after : w'.db.team =
        (w.db.updateMembership member.id fun m => { m with isBlocked := blocked }).team) :
      Move c w w' r

/-! ### The operations -/

section Operations

variable {c : Ctx} {w w' : World} {tenant : Tenant} {bearer : Bearer} {header : Option String}

/-- A guard with a role lets in whom it says. -/
theorem requireRole_acts {role : MemberRole} {actor : TenantMembership}
    (h : (requireRole c role bearer header).run w = .ok (tenant, actor) w') :
    w'.db = w.db ∧ Acts c w bearer header role tenant actor := by
  obtain ⟨hDb, hTenant, hRow, -, hLevel⟩ := requireRole_ok h
  obtain ⟨ctx, m, hGuard, h⟩ := Handler.run_bind_ok.mp h
  simp only [Handler.run_ensure_bind_ok, Handler.run_pure_ok] at h
  obtain ⟨-, rfl, -⟩ := h
  exact ⟨hDb, ⟨m, hGuard⟩, hTenant, hRow, hLevel⟩

theorem getTenantContext_acts {member : TenantMembership}
    (h : (getTenantContext c bearer header).run w = .ok (tenant, member) w') :
    w'.db = w.db ∧ Acts c w bearer header member.role tenant member := by
  obtain ⟨hDb, hTenant, hRow, -⟩ := getTenantContext_ok h
  exact ⟨hDb, ⟨w', h⟩, hTenant, hRow, Nat.le_refl _⟩

variable {cache : Redis}

theorem createWorkspace_move {user : User} {name : PyStr} {m : TenantMembership}
    (hGuard : ∃ m, (requireVerified c bearer).run w = .ok user m)
    (hRun : (createWorkspace c user name).run ⟨w.db, cache⟩ = .ok (tenant, m) w') :
    Move c w w' (.createWorkspace bearer name) := by
  obtain ⟨hNew, hCreator, hTenant, hRole, hTenants, hMembers, hTransfers, hInvitations⟩ :=
    createWorkspace_ok hRun
  refine .founds hGuard hNew hCreator hTenant hRole hTenants ?_
  rw [Db.team, hMembers, hTransfers, hInvitations]
  rfl

theorem changeRole_move {actor updated : TenantMembership} {userId : Uuid} {body : ChangeRoleRequest}
    (hValid : w.db.Valid)
    (hActs : Acts c w bearer header .admin tenant actor)
    (hRun : (changeRole tenant actor userId body.role.role body.billingAccess).run ⟨w.db, cache⟩ =
      .ok updated w') : Move c w w' (.changeMemberRole bearer header userId body) := by
  simp only [changeRole, Handler.run_query_bind, Handler.run_orRaise_bind_ok,
    Handler.run_ensure_bind_ok, Handler.run_exec_bind, Handler.run_pure_ok] at hRun
  obtain ⟨target, hFound, hSelf, hDemotes, -, -, rfl⟩ := hRun
  exact .changesRole hActs (asLoaded_of_valid hValid hActs.mem.1 hFound) hSelf hDemotes rfl

theorem removeMember_move {actor : TenantMembership} {userId : Uuid}
    (hActs : Acts c w bearer header .admin tenant actor)
    (hRun : (removeMember tenant actor userId).run ⟨w.db, cache⟩ = .ok () w') :
    Move c w w' (.removeMember bearer header userId) := by
  simp only [removeMember, Handler.run_query_bind, Handler.run_orRaise_bind_ok,
    Handler.run_ensure_bind_ok, Handler.run_exec, Outcome.ok.injEq, true_and] at hRun
  obtain ⟨hOther, target, hTarget, hRole, rfl⟩ := hRun
  exact .removes hActs hOther hTarget hRole rfl

theorem leaveTenant_move {member : TenantMembership}
    (hValid : w.db.Valid) (hActs : Acts c w bearer header member.role tenant member)
    (hRun : (leaveTenant member tenant.id member.userId).run ⟨w.db, cache⟩ = .ok () w') :
    Move c w w' (.leaveTenant bearer header) := by
  simp only [leaveTenant, Handler.run_query_bind, Handler.run_orRaise_bind_ok,
    Handler.run_ensure_bind_ok, Handler.run_exec, Outcome.ok.injEq, true_and] at hRun
  obtain ⟨row, hFound, hRole, rfl⟩ := hRun
  have hRow := asLoaded_of_valid hValid hActs.mem.1 hFound
  have hSame : row = member := Option.some.inj (hRow.symm.trans hActs.row)
  subst hSame
  exact .leaves hActs hRole rfl

/-- The transfers that `initiate_transfer` keeps are of other tenants. -/
theorem clearStaleTransfer_kept (hValid : w.db.Valid)
    (hRun : (clearStaleTransfer c tenant.id).run ⟨w.db, cache⟩ = .ok () w') :
    w'.db.memberships = w.db.memberships ∧ w'.db.invitations = w.db.invitations ∧
      w'.db.transfers ⊆ w.db.transfers ∧ ∀ x ∈ w'.db.transfers, x.tenantId ≠ tenant.id := by
  simp only [clearStaleTransfer, Handler.run_query_bind] at hRun
  split at hRun
  · rename_i hNone
    obtain ⟨-, rfl⟩ := Handler.run_pure_ok.mp hRun
    refine ⟨rfl, rfl, List.Subset.refl _, fun x hx hTenant => ?_⟩
    simpa [hTenant] using List.find?_eq_none.mp hNone x hx
  · rename_i existing hFound
    simp only [Handler.run_ensure_bind_ok, Handler.run_exec_bind, run_flush_ok] at hRun
    obtain ⟨-, -, rfl⟩ := hRun
    refine ⟨rfl, rfl, List.filter_subset_self _, fun x hx hTenant => ?_⟩
    obtain ⟨hMem, hOther⟩ := List.mem_filter.mp hx
    have hSame : existing.tenantId = tenant.id := by simpa using List.find?_some hFound
    obtain rfl := hValid.transfer_tenantId hMem (List.mem_of_find?_eq_some hFound)
      (hTenant.trans hSame.symm)
    simp at hOther

theorem initiateTransfer_move {actor : TenantMembership} {toUserId : Uuid}
    {x : OwnershipTransfer} (hValid : w.db.Valid)
    (hActs : Acts c w bearer header .owner tenant actor)
    (hRun : (initiateTransfer c tenant actor toUserId).run ⟨w.db, cache⟩ = .ok x w') :
    Move c w w' (.initiateTransfer bearer header toUserId) := by
  simp only [initiateTransfer, Handler.run_query_bind, Handler.run_ensure_bind_ok] at hRun
  obtain ⟨-, hOther, hTarget, hRun⟩ := hRun
  obtain ⟨target, hFound⟩ := Option.isSome_iff_exists.mp hTarget
  obtain ⟨⟨⟩, m, hClear, hRun⟩ := Handler.run_bind_ok.mp hRun
  simp only [Handler.run_exec_bind, run_flush_bind_ok, Handler.run_pure_ok] at hRun
  obtain ⟨-, -, rfl⟩ := hRun
  obtain ⟨hMembers, hInvitations, hSub, hSole⟩ := clearStaleTransfer_kept hValid hClear
  refine .offers hActs hOther hFound hSub hSole ?_
  simp only [Db.team, hMembers, hInvitations, offeredTransfer]

theorem acceptTransfer_move {member : TenantMembership}
    (hActs : Acts c w bearer header member.role tenant member)
    (hRun : (acceptTransfer c tenant.id member.userId).run ⟨w.db, cache⟩ = .ok () w') :
    Move c w w' (.acceptTransfer bearer header) := by
  simp only [acceptTransfer, swapOwner, Handler.run_query_bind, Handler.run_orRaise_bind_ok,
    Handler.run_ite_ok, Handler.run_exec_bind, Handler.run_throw_ok, and_false, false_or,
    Handler.run_exec, Outcome.ok.injEq, true_and] at hRun
  rw [hActs.row] at hRun
  obtain ⟨x, hFound, hLive, rfl⟩ := hRun
  have hx : x.tenantId = tenant.id ∧ x.toUserId = member.userId := by
    simpa using List.find?_some hFound
  exact .accepts hActs (List.mem_of_find?_eq_some hFound) hx.1 hx.2 (by omega) rfl

theorem inviteUser_move {actor : TenantMembership} {body : InviteRequest} {i : Invitation}
    (hActs : Acts c w bearer header .admin tenant actor)
    (hRun : (inviteUser c tenant actor body).run ⟨w.db, cache⟩ = .ok i w') :
    Move c w w' (.createInvitation bearer header body) := by
  simp only [inviteUser, enqueueJob, Handler.run_query_bind, Handler.run_ensure_bind_ok,
    Handler.run_exec_bind, run_flush_bind_ok, Handler.run_store_bind, Handler.run_pure_ok] at hRun
  obtain ⟨-, -, -, -, -, rfl⟩ := hRun
  exact .invites hActs rfl

theorem cancelInvitation_move {actor : TenantMembership} {invitationId : Uuid}
    (hActs : Acts c w bearer header .admin tenant actor)
    (hRun : (cancelInvitation tenant.id invitationId).run ⟨w.db, cache⟩ = .ok () w') :
    Move c w w' (.cancelInvitation bearer header invitationId) := by
  simp only [cancelInvitation, Handler.run_query_bind, Handler.run_orRaise_bind_ok,
    Handler.run_ensure_bind_ok, Handler.run_exec, Outcome.ok.injEq, true_and] at hRun
  obtain ⟨i, hFound, hPending, rfl⟩ := hRun
  have hId : i.id = invitationId ∧ i.tenantId = tenant.id := by simpa using List.find?_some hFound
  refine .cancels hActs ⟨i, List.mem_of_find?_eq_some hFound, hId.1, hPending⟩ ?_
  rw [← hId.1]

/-- The invitation that is taken up, and what becomes of it. -/
theorem acceptInvitation_ok {user : User} {token : TimedToken InvitationPayload}
    {m : TenantMembership} (hUser : w.db.user user.id = some user)
    (hRun : (acceptInvitation c user token).run ⟨w.db, cache⟩ = .ok m w') :
    ∃ i, w.db.Redeems c user token i ∧ m = invitedMembership c 0 user i ∧
      w'.db = w.db.join c.now m i := by
  simp only [acceptInvitation, Handler.run_query_bind, Handler.run_ensure_bind_ok,
    Handler.run_ofExcept_bind_ok, Handler.run_orRaise_bind_ok, Handler.run_exec_bind,
    run_flush_bind_ok, Handler.run_pure_ok] at hRun
  obtain ⟨payload, hLoads, hEmail, _, hRows, i, rfl, hPending, hLive, hNew, -, rfl, rfl⟩ := hRun
  obtain ⟨hMem, hHash⟩ : i ∈ w.db.invitations ∧
      i.tokenHash = c.lib.sha256 (c.lib.invitationText token) := by
    have hIn : i ∈ w.db.invitations.filter fun i =>
        i.tokenHash = c.lib.sha256 (c.lib.invitationText token) := by
      unfold scalarOneOrNone at hRows
      split at hRows <;> simp_all
    simpa using hIn
  refine ⟨i, ⟨hUser, ⟨payload, hLoads, hEmail⟩, hMem, hHash, hPending, ?_, ?_⟩, rfl, rfl⟩
  · omega
  · simpa using hNew

theorem acceptInvitation_move {user : User} {token : TimedToken InvitationPayload}
    {m : TenantMembership} (hGuard : ∃ m, (requireVerified c bearer).run w = .ok user m)
    (hRun : (acceptInvitation c user token).run ⟨w.db, cache⟩ = .ok m w') :
    Move c w w' (.acceptInvitation bearer token) := by
  obtain ⟨m', hVerified⟩ := hGuard
  obtain ⟨i, hRedeems, rfl, hDb⟩ := acceptInvitation_ok (requireVerified_ok hVerified).2.1 hRun
  exact .redeems ⟨m', hVerified⟩ hRedeems (congrArg Db.team hDb)

/-- The loop reads the id and the address of the user, and the team. -/
theorem autoJoinAll_team {user user' : User} {db db' : Db} (hId : user'.id = user.id)
    (hEmail : user'.email = user.email) (hTeam : db'.team = db.team) :
    (autoJoinAll c user' db').1.team = (autoJoinAll c user db).1.team := by
  obtain ⟨hMembers, hTransfers, hInvitations⟩ :
      db'.memberships = db.memberships ∧ db'.transfers = db.transfers ∧
        db'.invitations = db.invitations := by
    simpa [Db.team] using hTeam
  have hLoop : ∀ (pending : List Invitation) (acc acc' : Db × List TenantMembership),
      acc'.1.team = acc.1.team → acc'.2 = acc.2 →
      (pending.foldl (autoJoin c user') acc').1.team = (pending.foldl (autoJoin c user) acc).1.team := by
    intro pending
    induction pending with
    | nil => exact fun _ _ h _ => h
    | cons i pending ih =>
      intro acc acc' hAcc hMade
      have hRows : acc'.1.memberships = acc.1.memberships := congrArg (fun t => t.1) hAcc
      have hOffers : acc'.1.invitations = acc.1.invitations := congrArg (fun t => t.2.2) hAcc
      have hMember : acc'.1.membership user'.id i.tenantId = acc.1.membership user.id i.tenantId := by
        rw [Db.membership, Db.membership, hRows, hId]
      have hTransfers : acc'.1.transfers = acc.1.transfers := congrArg (fun t => t.2.1) hAcc
      have hNew : invitedMembership c acc'.2.length user' i =
          invitedMembership c acc.2.length user i := by
        rw [invitedMembership, invitedMembership, hId, hMade]
      refine ih _ _ ?_ ?_
      · unfold autoJoin
        rw [hMember]
        split
        · exact hAcc
        · simp only [Db.team, Db.join, hRows, hOffers, hTransfers, hNew]
      · unfold autoJoin
        rw [hMember]
        split
        · exact hMade
        · exact congrArg₂ _ hMade (congrArg (fun m => [m]) hNew)
  rw [autoJoinAll, autoJoinAll, hInvitations, hEmail]
  exact hLoop _ _ _ hTeam rfl

/-- A code is accepted when it is the one stored. -/
theorem verifyOtpCode_true {userId : Uuid} {code : String}
    (hRun : (verifyOtpCode c userId code).run w = .ok true w') :
    w.cache.otp.get c.now userId = some code := by
  simp only [verifyOtpCode, Handler.run_lookup_bind] at hRun
  split at hRun
  · cases (Handler.run_pure_ok.mp hRun).1
  · rename_i stored hStored
    rw [hStored]
    by_cases hSame : code = stored
    · rw [hSame]
    · rw [if_neg hSame] at hRun
      obtain ⟨attempts, m, -, hRun⟩ := Handler.run_bind_ok.mp hRun
      split at hRun
      · obtain ⟨⟨⟩, m', -, hRun⟩ := Handler.run_bind_ok.mp hRun
        cases (Handler.run_pure_ok.mp hRun).1
      · cases (Handler.run_pure_ok.mp hRun).1

theorem verifyEmail_move {email code : String}
    (hRun : (verifyEmail c email code).run w = .ok () w') :
    Move c w w' (.verifyEmail email code) := by
  simp only [verifyEmail, Handler.run_query_bind, Handler.run_orRaise_bind_ok, Handler.run_ite_ok,
    Handler.run_pure_ok, true_and] at hRun
  obtain ⟨user, hUser, ⟨-, rfl⟩ | ⟨hUnverified, hRun⟩⟩ := hRun
  · exact .idle rfl
  · obtain ⟨valid, m, hOtp, hRun⟩ := Handler.run_bind_ok.mp hRun
    have hEvolves := (verifyOtpCode_evolves (P := nonTenancy) user.id code).of_ok hOtp
    have hSame := Db.team_of_tenancy (hEvolves.tenancy.resolve_left (by simp [nonTenancy]))
    simp only [Handler.run_ensure_bind_ok, markVerified, Handler.run_exec_bind,
      Handler.run_discard_ok, autoJoinPendingInvitations, Handler.run_query_bind,
      run_flush_bind_ok, Handler.run_pure_ok] at hRun
    obtain ⟨hAccepted, -, -, -, rfl⟩ := hRun
    exact .autoJoins hUser (by simpa using hUnverified) (verifyOtpCode_true (hAccepted ▸ hOtp))
      (autoJoinAll_team rfl rfl hSame)

theorem getPendingTransfer_some {tenantId : Uuid} {x : OwnershipTransfer}
    (hRun : (getPendingTransfer c tenantId).run w = .ok (some x) w') : w'.db.team = w.db.team := by
  simp only [getPendingTransfer, Handler.run_query_bind] at hRun
  split at hRun
  · obtain ⟨hNone, -⟩ := Handler.run_pure_ok.mp hRun
    cases hNone
  · simp only [Handler.run_ite_ok, Handler.run_exec_bind, Handler.run_pure_ok, reduceCtorEq,
      false_and, and_false, false_or] at hRun
    rw [hRun.2.2]

theorem enforceMemberCap_same {tenantId : Uuid}
    (hRun : (enforceMemberCap tenantId).run w = .ok () w') : w' = w := by
  simp only [enforceMemberCap, Handler.run_query_bind] at hRun
  split at hRun
  · exact (Handler.run_pure_ok.mp hRun).2.symm
  · simp only [Handler.run_query_bind, Handler.run_orRaise_bind_ok, Handler.run_ensure] at hRun
    obtain ⟨plan, -, hRun⟩ := hRun
    split at hRun
    · exact (Outcome.ok.inj hRun).2.symm
    · cases hRun

theorem setBlocked_move {userId inTenant : Uuid} {blocked : Bool} {r : Request}
    (hRun : (setBlocked userId inTenant blocked).run ⟨w.db, cache⟩ = .ok () w') : Move c w w' r := by
  simp only [setBlocked, Handler.run_query_bind, Handler.run_orRaise_bind_ok, Handler.run_exec,
    Outcome.ok.injEq, true_and] at hRun
  obtain ⟨membership, hFound, rfl⟩ := hRun
  exact .blocks (Db.membership_mem hFound).1 rfl

end Operations

/-- Every committed request makes a move, and one that is rolled back makes none. -/
theorem handle_move {c : Ctx} {r : Request} {w w' : World} {response : Response}
    (hValid : w.db.Valid) (hEvolves : Evolves c r.powers w w')
    (hRun : (handle c r).run w = .ok response w') : Move c w w' r := by
  by_cases hChanges : r.changesTenancy = true
  · cases r with
    | verifyEmail email code =>
      obtain ⟨⟨⟩, m, hVerify, hRun⟩ := Handler.run_bind_ok.mp hRun
      obtain ⟨-, rfl⟩ := Handler.run_pure_ok.mp hRun
      exact verifyEmail_move hVerify
    | createWorkspace token name =>
      obtain ⟨user, ⟨db, cache⟩, hUser, hRun⟩ := Handler.run_bind_ok.mp hRun
      obtain ⟨⟨tenant, membership⟩, m', hCreate, hRun⟩ := Handler.run_bind_ok.mp hRun
      obtain ⟨-, rfl⟩ := Handler.run_pure_ok.mp hRun
      obtain rfl : db = w.db := (requireVerified_ok hUser).1
      exact createWorkspace_move ⟨_, hUser⟩ hCreate
    | changeMemberRole token header userId body =>
      obtain ⟨⟨tenant, actor⟩, ⟨db, cache⟩, hGuard, hRun⟩ := Handler.run_bind_ok.mp hRun
      obtain ⟨updated, m', hChange, hRun⟩ := Handler.run_bind_ok.mp hRun
      simp only [Handler.run_query_bind, Handler.run_ensure_bind_ok, Handler.run_pure_ok] at hRun
      obtain ⟨-, -, rfl⟩ := hRun
      obtain ⟨rfl, hActs⟩ : db = w.db ∧ Acts c w token header _ tenant _ := requireRole_acts hGuard
      exact changeRole_move hValid hActs hChange
    | removeMember token header userId =>
      obtain ⟨⟨tenant, actor⟩, ⟨db, cache⟩, hGuard, hRun⟩ := Handler.run_bind_ok.mp hRun
      obtain ⟨⟨⟩, m', hRemove, hRun⟩ := Handler.run_bind_ok.mp hRun
      obtain ⟨-, rfl⟩ := Handler.run_pure_ok.mp hRun
      obtain ⟨rfl, hActs⟩ : db = w.db ∧ Acts c w token header _ tenant _ := requireRole_acts hGuard
      exact removeMember_move hActs hRemove
    | leaveTenant token header =>
      obtain ⟨⟨tenant, member⟩, ⟨db, cache⟩, hGuard, hRun⟩ := Handler.run_bind_ok.mp hRun
      obtain ⟨⟨⟩, m', hLeave, hRun⟩ := Handler.run_bind_ok.mp hRun
      obtain ⟨-, rfl⟩ := Handler.run_pure_ok.mp hRun
      obtain ⟨rfl, hActs⟩ : db = w.db ∧ Acts c w token header _ tenant _ := getTenantContext_acts hGuard
      exact leaveTenant_move hValid hActs hLeave
    | initiateTransfer token header toUserId =>
      obtain ⟨⟨tenant, actor⟩, ⟨db, cache⟩, hGuard, hRun⟩ := Handler.run_bind_ok.mp hRun
      obtain ⟨transfer, m', hInitiate, hRun⟩ := Handler.run_bind_ok.mp hRun
      obtain ⟨-, rfl⟩ := Handler.run_pure_ok.mp hRun
      obtain ⟨rfl, hActs⟩ : db = w.db ∧ Acts c w token header _ tenant _ := requireRole_acts hGuard
      exact initiateTransfer_move hValid hActs hInitiate
    | acceptTransfer token header =>
      obtain ⟨⟨tenant, member⟩, ⟨db, cache⟩, hGuard, hRun⟩ := Handler.run_bind_ok.mp hRun
      obtain ⟨⟨⟩, m', hAccept, hRun⟩ := Handler.run_bind_ok.mp hRun
      obtain ⟨-, rfl⟩ := Handler.run_pure_ok.mp hRun
      obtain ⟨rfl, hActs⟩ : db = w.db ∧ Acts c w token header _ tenant _ := getTenantContext_acts hGuard
      exact acceptTransfer_move hActs hAccept
    | getPendingTransfer token header =>
      obtain ⟨⟨tenant, actor⟩, ⟨db, cache⟩, hGuard, hRun⟩ := Handler.run_bind_ok.mp hRun
      obtain ⟨found, m', hGet, hRun⟩ := Handler.run_bind_ok.mp hRun
      simp only [Handler.run_orRaise_bind_ok, Handler.run_pure_ok] at hRun
      obtain ⟨x, rfl, -, rfl⟩ := hRun
      -- a transfer that has expired is deleted, but then the route raises
      exact .idle (by rw [getPendingTransfer_some hGet, (requireRole_acts hGuard).1])
    | createInvitation token header body =>
      obtain ⟨⟨tenant, actor⟩, ⟨db, cache⟩, hGuard, hRun⟩ := Handler.run_bind_ok.mp hRun
      obtain ⟨⟨⟩, m', hCap, hRun⟩ := Handler.run_bind_ok.mp hRun
      obtain ⟨invitation, m'', hInvite, hRun⟩ := Handler.run_bind_ok.mp hRun
      obtain ⟨-, rfl⟩ := Handler.run_pure_ok.mp hRun
      obtain ⟨rfl, hActs⟩ : db = w.db ∧ Acts c w token header _ tenant _ := requireRole_acts hGuard
      have hSame := enforceMemberCap_same hCap
      subst hSame
      exact inviteUser_move hActs hInvite
    | acceptInvitation token invitation =>
      obtain ⟨user, ⟨db, cache⟩, hUser, hRun⟩ := Handler.run_bind_ok.mp hRun
      obtain ⟨membership, m', hAccept, hRun⟩ := Handler.run_bind_ok.mp hRun
      obtain ⟨-, rfl⟩ := Handler.run_pure_ok.mp hRun
      obtain rfl : db = w.db := (requireVerified_ok hUser).1
      exact acceptInvitation_move ⟨_, hUser⟩ hAccept
    | cancelInvitation token header invitationId =>
      obtain ⟨⟨tenant, actor⟩, ⟨db, cache⟩, hGuard, hRun⟩ := Handler.run_bind_ok.mp hRun
      obtain ⟨⟨⟩, m', hCancel, hRun⟩ := Handler.run_bind_ok.mp hRun
      obtain ⟨-, rfl⟩ := Handler.run_pure_ok.mp hRun
      obtain ⟨rfl, hActs⟩ : db = w.db ∧ Acts c w token header _ tenant _ := requireRole_acts hGuard
      exact cancelInvitation_move hActs hCancel
    | blockUser token userId inTenant | unblockUser token userId inTenant =>
      obtain ⟨⟨⟩, m, hAdmin, hRun⟩ := Handler.run_bind_ok.mp hRun
      obtain ⟨⟨⟩, m', hBlock, hRun⟩ := Handler.run_bind_ok.mp hRun
      obtain ⟨-, rfl⟩ := Handler.run_pure_ok.mp hRun
      obtain ⟨user, hAdmin⟩ := Handler.run_discard_ok.mp hAdmin
      obtain ⟨p, -, -, -, -, -, -, -, rfl⟩ := requireAdmin_ok.mp hAdmin
      exact setBlocked_move hBlock
    | _ => simp [Request.changesTenancy] at hChanges
  · exact .idle (Db.team_of_tenancy (hEvolves.tenancy.resolve_left hChanges))

theorem Step.move {cfg : Config} {s s' : Sys} {e : Event} (hs : s.Sound cfg)
    (h : Step cfg s e s') : Move (e.ctx cfg) s.world s'.world e.request := by
  cases hOutcome : e.outcome with
  | ok response => exact handle_move hs.valid (h.evolves hs) (h.committed hOutcome).1
  | error error => exact .idle (by rw [h.rolledBack hOutcome])

/-! ### One owner in every tenant -/

/-- Every tenant has exactly one owner, whom its transfer is from. -/
def Db.AllGoverned (db : Db) : Prop := ∀ t ∈ db.tenants, db.Governed t.id

section Governed

variable {cfg : Config} {s s' : Sys} {e : Event}

/-- A workspace that is committed adds its tenant, and its creator is the one owner. -/
theorem Step.founds (h : Step cfg s e s') {token : Bearer} {name : PyStr}
    {response : Response} (hRequest : e.request = .createWorkspace token name)
    (hOutcome : e.outcome = .ok response) :
    ∃ tenant, (s.world.db.Valid → s'.world.db.Governed tenant.id) ∧
      s'.world.db.tenants = s.world.db.tenants ++ [tenant] := by
  have hHandle := (h.committed hOutcome).1
  rw [hRequest] at hHandle
  obtain ⟨user, m, hUser, hHandle⟩ := Handler.run_bind_ok.mp hHandle
  obtain ⟨⟨tenant, membership⟩, m', hCreate, hHandle⟩ := Handler.run_bind_ok.mp hHandle
  obtain ⟨-, rfl⟩ := Handler.run_pure_ok.mp hHandle
  have hDb := (requireVerified_ok hUser).1
  exact ⟨tenant, fun hValid => createWorkspace_founds (hDb ▸ hValid) hCreate,
    hDb ▸ (createWorkspace_ok hCreate).tenants⟩

theorem Step.hasTenant (hs : s.Sound cfg) (h : Step cfg s e s') {tenantId : Uuid}
    (hTenant : s.world.db.HasTenant tenantId) : s'.world.db.HasTenant tenantId := by
  have hOf (hSame : s'.world.db.tenants.map (fun t => t.id) =
      s.world.db.tenants.map fun t => t.id) : s'.world.db.HasTenant tenantId := by
    obtain ⟨t, ht, rfl⟩ := hTenant
    have hId : t.id ∈ s'.world.db.tenants.map fun t => t.id := hSame ▸ List.mem_map_of_mem ht
    exact List.mem_map.mp hId
  by_cases hChanges : e.request.changesTenancy = true
  · by_cases hFounds : ∃ token name, e.request = .createWorkspace token name
    · obtain ⟨token, name, hRequest⟩ := hFounds
      cases hOutcome : e.outcome with
      | error error => exact h.rolledBack hOutcome ▸ hTenant
      | ok response =>
        obtain ⟨tenant, -, hTenants⟩ := h.founds hRequest hOutcome
        obtain ⟨t, ht, hId⟩ := hTenant
        exact ⟨t, hTenants ▸ List.mem_append_left _ ht, hId⟩
    · have hParts : Part.tenants ∉ e.request.parts := by
        revert hChanges hFounds
        cases e.request <;> simp [Request.changesTenancy, Request.parts]
      have hSame : s'.world.db.tenants = s.world.db.tenants := h.same hParts
      exact hOf (by rw [hSame])
  · have hTenancy := (h.evolves hs).tenancy.resolve_left hChanges
    simp only [Db.tenancy, Prod.mk.injEq] at hTenancy
    exact hOf hTenancy.2.2.2

/-- A request that founds no workspace leaves the ids of the tenants. -/
theorem Step.tenant_known (hs : s.Sound cfg) (h : Step cfg s e s')
    (hRequest : ∀ token name, e.request ≠ .createWorkspace token name) {t : Tenant}
    (ht : t ∈ s'.world.db.tenants) : s.world.db.HasTenant t.id := by
  by_cases hChanges : e.request.changesTenancy = true
  · have hParts : Part.tenants ∉ e.request.parts := by
      revert hChanges hRequest
      cases e.request <;> simp [Request.changesTenancy, Request.parts]
    have hSame : s'.world.db.tenants = s.world.db.tenants := h.same hParts
    exact ⟨t, hSame ▸ ht, rfl⟩
  · have hTenancy := (h.evolves hs).tenancy.resolve_left hChanges
    simp only [Db.tenancy, Prod.mk.injEq] at hTenancy
    have hId : t.id ∈ s.world.db.tenants.map fun t => t.id :=
      hTenancy.2.2.2 ▸ List.mem_map_of_mem ht
    exact List.mem_map.mp hId

theorem Step.keeps_allGoverned (hs : s.Sound cfg) (h : Step cfg s e s')
    (hAll : s.world.db.AllGoverned) : s'.world.db.AllGoverned := by
  intro t ht
  have hOld (hKnown : s.world.db.HasTenant t.id) : s'.world.db.Governed t.id := by
    obtain ⟨t₀, ht₀, hId⟩ := hKnown
    exact h.keeps_owner hs (hId ▸ hAll t₀ ht₀)
  by_cases hFounds : ∃ token name, e.request = .createWorkspace token name
  · obtain ⟨token, name, hRequest⟩ := hFounds
    cases hOutcome : e.outcome with
    | error error => exact hOld ⟨t, h.rolledBack hOutcome ▸ ht, rfl⟩
    | ok response =>
      obtain ⟨tenant, hFounded, hTenants⟩ := h.founds hRequest hOutcome
      rw [hTenants] at ht
      rcases List.mem_append.mp ht with ht | ht
      · exact hOld ⟨t, ht, rfl⟩
      · obtain rfl := List.mem_singleton.mp ht
        exact hFounded hs.valid
  · exact hOld (h.tenant_known hs (fun token name hRequest => hFounds ⟨token, name, hRequest⟩) ht)

end Governed

/-! ### A small team -/

def acme : Tenant := ⟨⟨5⟩, "Acme", "acme", false, none, false, false⟩

def bob : User := { sampleUser with id := ⟨2⟩, email := "bob@example.com" }

/-- Alice owns a workspace of which Bob is an admin. -/
def teamStart : Sys := sampleStart
  { users := [sampleUser, bob]
    tenants := [acme]
    memberships := [⟨⟨10⟩, ⟨1⟩, ⟨5⟩, .owner, true, false, none, 0⟩,
      ⟨⟨11⟩, ⟨2⟩, ⟨5⟩, .admin, false, false, none, 0⟩] }

theorem teamStart_initial : Initial teamStart := ⟨by decide, rfl, rfl, rfl, rfl, rfl, rfl⟩

/-- Alice has signed in. -/
def teamSignedIn : Event × Sys :=
  teamStart.sample (seconds 10) (.login "alice@example.com" "pw" none none none)

def aliceToken : Payload := { signedInToken with tenantId := some ⟨5⟩, role := some "owner" }

theorem teamSignedIn_step : Step sampleConfig teamStart teamSignedIn.1 teamSignedIn.2 :=
  .of_admits (by decide) (by trivial)

theorem teamStart_governed : teamStart.world.db.AllGoverned := by
  intro t ht
  obtain rfl := List.mem_singleton.mp ht
  exact ⟨⟨⟨10⟩, ⟨1⟩, ⟨5⟩, .owner, true, false, none, 0⟩, ⟨rfl, by decide⟩⟩

end WxcodeAdm
