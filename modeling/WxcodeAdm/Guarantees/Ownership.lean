import WxcodeAdm.Lib.Sole
import WxcodeAdm.System

/-! A workspace has exactly one owner, in every state that any requests lead to, and a pending
transfer of it is from that owner.  Invitations never offer the owner role, a demotion or a removal
never meets the owner, and accepting a transfer moves the role from the one owner to another
member. -/

namespace WxcodeAdm

open Lib

def isOwnerOf (tenantId : Uuid) (m : TenantMembership) : Bool :=
  m.tenantId = tenantId ∧ m.role = .owner

/-- The tenant has the one owner `owner`, and its pending transfer is from that owner. -/
structure Db.OwnedBy (db : Db) (tenantId : Uuid) (owner : TenantMembership) : Prop where
  sole : Sole (isOwnerOf tenantId) db.memberships owner
  transfers : ∀ x ∈ db.transfers, x.tenantId = tenantId → x.fromUserId = owner.userId

/-- The tenant has exactly one owner, whom its pending transfer is from. -/
def Db.Governed (db : Db) (tenantId : Uuid) : Prop := ∃ owner, db.OwnedBy tenantId owner

theorem isOwnerOf_iff {tenantId : Uuid} {m : TenantMembership} :
    isOwnerOf tenantId m = true ↔ m.tenantId = tenantId ∧ m.role = .owner := by
  simp [isOwnerOf]

theorem isOwnerOf_of_role {tenantId : Uuid} {m : TenantMembership} (h : m.role ≠ .owner) :
    isOwnerOf tenantId m = false := by
  simp [isOwnerOf, h]

/-! ### Writes that keep one owner -/

namespace Db.Governed

variable {db db' : Db} {tenantId : Uuid}

theorem of_frame (h : db.Governed tenantId) (hMembers : db'.memberships = db.memberships)
    (hTransfers : db'.transfers ⊆ db.transfers) : db'.Governed tenantId := by
  obtain ⟨owner, hSole, hFrom⟩ := h
  exact ⟨owner, hMembers ▸ hSole, fun x hx => hFrom x (hTransfers hx)⟩

theorem of_tenancy (h : db.Governed tenantId) (hFrame : db'.tenancy = db.tenancy) :
    db'.Governed tenantId := by
  simp only [Db.tenancy, Prod.mk.injEq] at hFrame
  exact h.of_frame hFrame.1 (hFrame.2.1 ▸ List.Subset.refl _)

theorem deleteTransfers (h : db.Governed tenantId) (p : OwnershipTransfer → Bool) :
    (db.deleteTransfers p).Governed tenantId :=
  h.of_frame rfl (List.filter_subset_self _)

/-- A transfer of the tenant may be added when it is from an owner. -/
theorem addTransfer (h : db.Governed tenantId) {x : OwnershipTransfer}
    (hx : x.tenantId = tenantId → ∃ m ∈ db.memberships, isOwnerOf tenantId m = true ∧
      x.fromUserId = m.userId) :
    Db.Governed { db with transfers := db.transfers ++ [x] } tenantId := by
  obtain ⟨owner, hSole, hFrom⟩ := h
  refine ⟨owner, hSole, fun x' hx' hTenant => ?_⟩
  rcases List.mem_append.mp hx' with hOld | hNew
  · exact hFrom x' hOld hTenant
  · obtain rfl := List.mem_singleton.mp hNew
    obtain ⟨m, hm, hOwner, hUser⟩ := hx hTenant
    exact hUser.trans (congrArg _ (hSole.eq hm hOwner))

theorem addMembership (h : db.Governed tenantId) {m : TenantMembership}
    (hm : isOwnerOf tenantId m = false) :
    Db.Governed { db with memberships := db.memberships ++ [m] } tenantId := by
  obtain ⟨owner, hSole, hFrom⟩ := h
  exact ⟨owner, hSole.append (by simpa using hm), hFrom⟩

theorem join (h : db.Governed tenantId) (now : Nat) {m : TenantMembership}
    (hm : m.role ≠ .owner) (i : Invitation) : (db.join now m i).Governed tenantId :=
  (h.addMembership (isOwnerOf_of_role hm)).of_frame rfl (List.Subset.refl _)

/-- A row that is no owner row of the tenant may be deleted. -/
theorem deleteMembership (hValid : db.Valid) (h : db.Governed tenantId) {m : TenantMembership}
    (hMem : m ∈ db.memberships) (hm : m.role ≠ .owner) :
    (db.deleteMembership m.id).Governed tenantId := by
  obtain ⟨owner, hSole, hFrom⟩ := h
  refine ⟨owner, hSole.filter ?_, hFrom⟩
  have hNe : owner.id ≠ m.id := fun hId => by
    obtain rfl := hValid.membership_id hSole.mem.1 hMem hId
    exact hm (isOwnerOf_iff.mp hSole.mem.2).2
  simpa using hNe

/-- A row may change without becoming or ceasing to be an owner row of the tenant. -/
theorem updateMembership (h : db.Governed tenantId) {id : Uuid}
    {f : TenantMembership → TenantMembership}
    (hf : ∀ m ∈ db.memberships, m.id = id →
      isOwnerOf tenantId (f m) = isOwnerOf tenantId m ∧ (f m).userId = m.userId) :
    (db.updateMembership id f).Governed tenantId := by
  obtain ⟨owner, hSole, hFrom⟩ := h
  refine ⟨_, hSole.map fun m hm => ?_, fun x hx hTenant => ?_⟩
  · split
    · rename_i hId
      exact (hf m hm hId).1
    · rfl
  · rw [hFrom x hx hTenant]
    split
    · rename_i hId
      exact (hf owner hSole.mem.1 hId).2.symm
    · rfl

/-- A row may be saved without becoming or ceasing to be an owner row of the tenant. -/
theorem saveMembership (h : db.Governed tenantId) {loaded changed : TenantMembership}
    (hRow : ∀ m ∈ db.memberships, m.id = loaded.id → m = loaded)
    (hChanged : isOwnerOf tenantId changed = isOwnerOf tenantId loaded)
    (hTenant : changed.tenantId = loaded.tenantId) :
    (db.saveMembership loaded changed).Governed tenantId := by
  unfold Db.saveMembership
  split
  · exact h
  · refine h.updateMembership fun m hm hId => ⟨?_, rfl⟩
    obtain rfl := hRow m hm hId
    rw [← hChanged]
    simp only [isOwnerOf, hTenant]
    split <;> simp_all

/-- What a swap makes of a row: an owner of the one that accepts, an admin of the one it accepts
from. -/
def swapped (fromId toId : Uuid) (m : TenantMembership) : TenantMembership :=
  if m.id = toId then { m with role := .owner }
  else if m.id = fromId then { m with role := .admin }
  else m

theorem setRole_setRole (f m : TenantMembership) :
    ((db.setRole (some f) .admin).setRole (some m) .owner).memberships =
      db.memberships.map (swapped f.id m.id) := by
  simp only [Db.setRole, Db.updateMembership, List.map_map]
  refine List.map_congr_left fun y _ => ?_
  simp only [Function.comp, swapped]
  by_cases hTo : y.id = m.id
  · rw [if_pos hTo]
    split <;> simp [hTo]
  · rw [if_neg hTo]
    split <;> simp_all

theorem swapped_userId (fromId toId : Uuid) (m : TenantMembership) :
    (swapped fromId toId m).userId = m.userId := by
  unfold swapped
  split_ifs <;> rfl

/-- The one owner hands the role over: then the accepting row is the one owner row. -/
theorem swapped_sole (hValid : db.Valid) {owner m : TenantMembership}
    (hSole : Sole (isOwnerOf tenantId) db.memberships owner) (hm : m ∈ db.memberships)
    (hTenant : m.tenantId = tenantId) :
    Sole (isOwnerOf tenantId) (db.memberships.map (swapped owner.id m.id))
      (swapped owner.id m.id m) := by
  refine Sole.map_of_unique (List.Nodup.of_map _ hValid.membershipId) hm fun y hy => ?_
  by_cases hTo : y.id = m.id
  · obtain rfl := hValid.membership_id hy hm hTo
    simp [swapped, isOwnerOf, hTenant]
  · refine iff_of_false ?_ fun hEq => hTo (congrArg _ hEq)
    by_cases hOld : y.id = owner.id
    · rw [swapped, if_neg hTo, if_pos hOld]
      simp [isOwnerOf]
    · simpa [swapped, hTo, hOld] using fun hOwns => hOld (congrArg _ (hSole.eq hy hOwns))

/-- Accepting a transfer moves the owner role to the member who accepts. -/
theorem swap (h : db.Governed tenantId) (hValid : db.Valid) {x : OwnershipTransfer}
    {m : TenantMembership} (hx : x ∈ db.transfers) (hm : m ∈ db.memberships)
    (hTenant : m.tenantId = x.tenantId) :
    (((db.setRole (db.membership x.fromUserId x.tenantId) .admin).setRole (some m)
      .owner).deleteTransfers fun x' => x'.id = x.id).Governed tenantId := by
  obtain ⟨owner, hSole, hFrom⟩ := h
  by_cases hSame : x.tenantId = tenantId
  · have hFromRow : db.membership x.fromUserId x.tenantId = some owner := by
      rw [hFrom x hx hSame, hSame, ← (isOwnerOf_iff.mp hSole.mem.2).1]
      exact hValid.membership_of_mem hSole.mem.1
    rw [hFromRow]
    refine ⟨swapped owner.id m.id m, ?_, fun x' hx' hTenant' => ?_⟩
    · have hRows := swapped_sole hValid hSole hm (hTenant.trans hSame)
      rwa [← setRole_setRole] at hRows
    · obtain ⟨hMem, hNot⟩ := List.mem_filter.mp hx'
      obtain rfl := hValid.transfer_tenantId hMem hx (hTenant'.trans hSame.symm)
      simp at hNot
  · refine Db.Governed.deleteTransfers ?_ _
    -- the rows of another tenant are no owner rows of this one, before or after
    have hOther : ∀ {y y' : TenantMembership}, y'.tenantId = x.tenantId → y ∈ db.memberships →
        y' ∈ db.memberships → y.id = y'.id → y.tenantId ≠ tenantId := fun hTenant' hy hy' hId => by
      obtain rfl := hValid.membership_id hy hy' hId
      exact fun hEq => hSame (hTenant'.symm.trans hEq)
    cases hFromRow : db.membership x.fromUserId x.tenantId with
    | none =>
      exact updateMembership ⟨owner, hSole, hFrom⟩ fun y hy hId => by
        simp [isOwnerOf, hOther hTenant hy hm hId]
    | some f =>
      obtain ⟨hf, -, hfTenant⟩ := Db.membership_mem hFromRow
      refine ⟨swapped f.id m.id owner, ?_, fun x' hx' hTenant' => ?_⟩
      · rw [setRole_setRole]
        refine hSole.map fun y hy => ?_
        unfold swapped
        split_ifs with hTo hOld
        · simp [isOwnerOf, hOther hTenant hy hm hTo]
        · simp [isOwnerOf, hOther hfTenant hy hf hOld]
        · rfl
      · exact (hFrom x' hx' hTenant').trans (swapped_userId _ _ _).symm

end Db.Governed

/-! ### What the operations keep -/

section Operations

variable {c : Ctx} {w w' : World} {tenantId : Uuid} {tenant : Tenant}

/-- In a request that runs alone, a row that was loaded has not changed since. -/
theorem asLoaded_of_valid {db : Db} {loaded target : TenantMembership} {userId inTenant : Uuid}
    (hValid : db.Valid) (hLoaded : loaded ∈ db.memberships)
    (h : asLoaded loaded (db.membership userId inTenant) = some target) :
    db.membership userId inTenant = some target := by
  obtain ⟨m, hFound, rfl⟩ := Option.map_eq_some_iff.mp h
  split
  · rename_i hId
    rw [hFound, hValid.membership_id (Db.membership_mem hFound).1 hLoaded hId]
  · exact hFound

theorem changeRole_keeps {actor updated : TenantMembership} {userId : Uuid} {role : MemberRole}
    {billing : Option Bool} (hValid : w.db.Valid) (h : w.db.Governed tenantId)
    (hActor : w.db.membership actor.userId tenant.id = some actor)
    (hRun : (changeRole tenant actor userId role billing).run w = .ok updated w') :
    w'.db.Governed tenantId := by
  simp only [changeRole, Handler.run_query_bind, Handler.run_orRaise_bind_ok,
    Handler.run_ensure_bind_ok, Handler.run_exec_bind, Handler.run_pure_ok] at hRun
  obtain ⟨target, hFound, hSelf, hOwnerOnly, hRole, -, rfl⟩ := hRun
  obtain ⟨hActorMem, -, hActorTenant⟩ := Db.membership_mem hActor
  have hTarget := asLoaded_of_valid hValid hActorMem hFound
  obtain ⟨hMem, -, hTenant⟩ := Db.membership_mem hTarget
  refine h.saveMembership (fun m hm hId => hValid.membership_id hm hMem hId) ?_ rfl
  rw [isOwnerOf_of_role hRole]
  refine (Bool.eq_false_iff.mpr fun hOwner => ?_).symm
  -- only an owner may demote an owner, and the one owner may not demote itself
  obtain ⟨owner, hSole, -⟩ := h
  obtain ⟨hIn, hIsOwner⟩ := isOwnerOf_iff.mp hOwner
  have hActorOwner : actor.role = .owner := by
    by_contra hNot
    exact hOwnerOnly ⟨hIsOwner, hNot⟩
  have hActorIs : isOwnerOf tenantId actor = true :=
    isOwnerOf_iff.mpr ⟨hActorTenant.trans (hTenant.symm.trans hIn), hActorOwner⟩
  have hSame : target = actor := (hSole.eq hMem hOwner).trans (hSole.eq hActorMem hActorIs).symm
  exact hSelf ⟨hIsOwner, congrArg _ hSame⟩

theorem removeMember_keeps {actor : TenantMembership} {userId : Uuid} (hValid : w.db.Valid)
    (h : w.db.Governed tenantId)
    (hRun : (removeMember tenant actor userId).run w = .ok () w') : w'.db.Governed tenantId := by
  simp only [removeMember, Handler.run_query_bind, Handler.run_orRaise_bind_ok,
    Handler.run_ensure_bind_ok, Handler.run_exec, Outcome.ok.injEq, true_and] at hRun
  obtain ⟨-, target, hTarget, hRole, rfl⟩ := hRun
  exact h.deleteMembership hValid (Db.membership_mem hTarget).1 hRole

theorem leaveTenant_keeps {loaded : TenantMembership} {inTenant userId : Uuid}
    (hValid : w.db.Valid) (h : w.db.Governed tenantId) (hLoaded : loaded ∈ w.db.memberships)
    (hRun : (leaveTenant loaded inTenant userId).run w = .ok () w') :
    w'.db.Governed tenantId := by
  simp only [leaveTenant, Handler.run_query_bind, Handler.run_orRaise_bind_ok,
    Handler.run_ensure_bind_ok, Handler.run_exec, Outcome.ok.injEq, true_and] at hRun
  obtain ⟨membership, hFound, hRole, rfl⟩ := hRun
  have hRow := asLoaded_of_valid hValid hLoaded hFound
  exact h.deleteMembership hValid (Db.membership_mem hRow).1 hRole

theorem setBlocked_keeps {userId inTenant : Uuid} {blocked : Bool} (h : w.db.Governed tenantId)
    (hRun : (setBlocked userId inTenant blocked).run w = .ok () w') :
    w'.db.Governed tenantId := by
  simp only [setBlocked, Handler.run_query_bind, Handler.run_orRaise_bind_ok, Handler.run_exec,
    Outcome.ok.injEq, true_and] at hRun
  obtain ⟨membership, -, rfl⟩ := hRun
  exact h.updateMembership fun m _ _ => ⟨rfl, rfl⟩

theorem clearStaleTransfer_ok {inTenant : Uuid}
    (hRun : (clearStaleTransfer c inTenant).run w = .ok () w') :
    w'.db.memberships = w.db.memberships ∧ w'.db.transfers ⊆ w.db.transfers := by
  simp only [clearStaleTransfer, Handler.run_query_bind] at hRun
  split at hRun
  · obtain ⟨-, rfl⟩ := Handler.run_pure_ok.mp hRun
    exact ⟨rfl, List.Subset.refl _⟩
  · simp only [Handler.run_ensure_bind_ok, Handler.run_exec_bind, run_flush_ok] at hRun
    obtain ⟨-, -, rfl⟩ := hRun
    exact ⟨rfl, List.filter_subset_self _⟩

theorem initiateTransfer_keeps {owner : TenantMembership} {toUserId : Uuid}
    {x : OwnershipTransfer} (h : w.db.Governed tenantId)
    (hOwner : w.db.membership owner.userId tenant.id = some owner)
    (hRun : (initiateTransfer c tenant owner toUserId).run w = .ok x w') :
    w'.db.Governed tenantId := by
  simp only [initiateTransfer, Handler.run_query_bind, Handler.run_ensure_bind_ok] at hRun
  obtain ⟨hRole, -, -, hRun⟩ := hRun
  obtain ⟨⟨⟩, m, hClear, hRun⟩ := Handler.run_bind_ok.mp hRun
  simp only [Handler.run_exec_bind, run_flush_bind_ok, Handler.run_pure_ok] at hRun
  obtain ⟨-, -, rfl⟩ := hRun
  obtain ⟨hMembers, hTransfers⟩ := clearStaleTransfer_ok hClear
  obtain ⟨hMem, -, hTenant⟩ := Db.membership_mem hOwner
  refine (h.of_frame hMembers hTransfers).addTransfer fun hSame =>
    ⟨owner, hMembers ▸ hMem, isOwnerOf_iff.mpr ⟨hTenant.trans hSame, hRole⟩, rfl⟩

theorem acceptTransfer_keeps {inTenant userId : Uuid} {m : TenantMembership}
    (hValid : w.db.Valid) (h : w.db.Governed tenantId)
    (hMember : w.db.membership userId inTenant = some m)
    (hRun : (acceptTransfer c inTenant userId).run w = .ok () w') : w'.db.Governed tenantId := by
  simp only [acceptTransfer, swapOwner, Handler.run_query_bind, Handler.run_orRaise_bind_ok,
    Handler.run_ite_ok, Handler.run_exec_bind, Handler.run_throw_ok, and_false, false_or,
    Handler.run_exec, Outcome.ok.injEq, true_and, hMember] at hRun
  obtain ⟨x, hFound, -, rfl⟩ := hRun
  obtain ⟨hMem, -, hTenant⟩ := Db.membership_mem hMember
  have hx : x.tenantId = inTenant ∧ x.toUserId = userId := by simpa using List.find?_some hFound
  obtain rfl := hx.1
  exact h.swap hValid (List.mem_of_find?_eq_some hFound) hMem hTenant

theorem getPendingTransfer_keeps {inTenant : Uuid} {x : Option OwnershipTransfer}
    (h : w.db.Governed tenantId) (hRun : (getPendingTransfer c inTenant).run w = .ok x w') :
    w'.db.Governed tenantId := by
  simp only [getPendingTransfer, Handler.run_query_bind] at hRun
  split at hRun
  · obtain ⟨-, rfl⟩ := Handler.run_pure_ok.mp hRun
    exact h
  · simp only [Handler.run_ite_ok, Handler.run_exec_bind, Handler.run_pure_ok] at hRun
    rcases hRun with ⟨-, -, rfl⟩ | ⟨-, -, rfl⟩
    · exact h.deleteTransfers _
    · exact h

theorem inviteUser_keeps {membership : TenantMembership} {body : InviteRequest} {i : Invitation}
    (h : w.db.Governed tenantId)
    (hRun : (inviteUser c tenant membership body).run w = .ok i w') : w'.db.Governed tenantId := by
  simp only [inviteUser, enqueueJob, Handler.run_query_bind, Handler.run_ensure_bind_ok,
    Handler.run_exec_bind, run_flush_bind_ok, Handler.run_store_bind, Handler.run_pure_ok] at hRun
  obtain ⟨-, -, -, -, -, rfl⟩ := hRun
  exact h.of_frame rfl (List.Subset.refl _)

theorem acceptInvitation_keeps {user : User} {token : TimedToken InvitationPayload}
    {m : TenantMembership} (hInvitations : w.db.InvitesNoOwner) (h : w.db.Governed tenantId)
    (hRun : (acceptInvitation c user token).run w = .ok m w') : w'.db.Governed tenantId := by
  simp only [acceptInvitation, Handler.run_query_bind, Handler.run_ensure_bind_ok,
    Handler.run_ofExcept_bind_ok, Handler.run_orRaise_bind_ok, Handler.run_exec_bind,
    run_flush_bind_ok, Handler.run_pure_ok] at hRun
  obtain ⟨-, -, -, found, hRows, i, rfl, -, -, -, -, -, rfl⟩ := hRun
  have hi : i ∈ w.db.invitations := by
    have hMem : i ∈ w.db.invitations.filter fun i =>
        i.tokenHash = c.lib.sha256 (c.lib.invitationText token) := by
      unfold scalarOneOrNone at hRows
      split at hRows <;> simp_all
    exact (List.mem_filter.mp hMem).1
  exact h.join _ (hInvitations i hi) i

theorem cancelInvitation_keeps {inTenant invitationId : Uuid} (h : w.db.Governed tenantId)
    (hRun : (cancelInvitation inTenant invitationId).run w = .ok () w') :
    w'.db.Governed tenantId := by
  simp only [cancelInvitation, Handler.run_query_bind, Handler.run_orRaise_bind_ok,
    Handler.run_ensure_bind_ok, Handler.run_exec, Outcome.ok.injEq, true_and] at hRun
  obtain ⟨-, -, -, rfl⟩ := hRun
  exact h.of_frame rfl (List.Subset.refl _)

theorem autoJoinAll_keeps {user : User} {db : Db} (hInvitations : db.InvitesNoOwner)
    (h : db.Governed tenantId) : (autoJoinAll c user db).1.Governed tenantId := by
  unfold autoJoinAll
  refine List.foldlRecOn _ (autoJoin c user) (motive := fun acc : Db × List TenantMembership =>
    acc.1.Governed tenantId) h fun acc hAcc i hi => ?_
  unfold autoJoin
  split
  · exact hAcc
  · exact hAcc.join _ (hInvitations i (List.mem_filter.mp hi).1) i

def nonTenancy (p : Power) : Prop := p ≠ .tenancy

theorem verifyEmail_keeps {email code : String} (hInvitations : w.db.InvitesNoOwner)
    (h : w.db.Governed tenantId) (hRun : (verifyEmail c email code).run w = .ok () w') :
    w'.db.Governed tenantId := by
  simp only [verifyEmail, Handler.run_query_bind, Handler.run_orRaise_bind_ok, Handler.run_ite_ok,
    Handler.run_pure_ok, true_and] at hRun
  obtain ⟨user, -, ⟨-, rfl⟩ | ⟨-, hRun⟩⟩ := hRun
  · exact h
  · obtain ⟨valid, m, hOtp, hRun⟩ := Handler.run_bind_ok.mp hRun
    have hEvolves := (verifyOtpCode_evolves (P := nonTenancy) user.id code).of_ok hOtp
    have hMid := h.of_tenancy (hEvolves.tenancy.resolve_left (by simp [nonTenancy]))
    simp only [Handler.run_ensure_bind_ok, markVerified, Handler.run_exec_bind,
      Handler.run_discard_ok, autoJoinPendingInvitations, Handler.run_query_bind,
      run_flush_bind_ok, Handler.run_pure_ok] at hRun
    obtain ⟨-, -, -, -, rfl⟩ := hRun
    exact autoJoinAll_keeps (hEvolves.invitations hInvitations) (hMid.of_tenancy rfl)

/-- A workspace is a new tenant with one membership, of the owner. -/
structure Founded (db db' : Db) (user : User) (tenant : Tenant) (m : TenantMembership) : Prop where
  new : ¬db.HasTenant tenant.id
  creator : m.userId = user.id
  inTenant : m.tenantId = tenant.id
  role : m.role = .owner
  tenants : db'.tenants = db.tenants ++ [tenant]
  memberships : db'.memberships = db.memberships ++ [m]
  transfers : db'.transfers = db.transfers
  invitations : db'.invitations = db.invitations

theorem createWorkspace_ok {user : User} {name : PyStr} {m : TenantMembership}
    (hRun : (createWorkspace c user name).run w = .ok (tenant, m) w') :
    Founded w.db w'.db user tenant m := by
  obtain ⟨slug, w₁, hSlug, hRun⟩ := Handler.run_bind_ok.mp hRun
  simp only [generateUniqueSlug, Handler.run_query_bind, Handler.run_orRaise_ok] at hSlug
  obtain ⟨-, rfl⟩ := hSlug
  simp only [Handler.run_exec_bind, run_flush_bind_ok, bootstrapFreeSubscription, bind_assoc,
    Handler.run_query_bind, Handler.run_orRaise_bind_ok, Handler.run_pure_ok,
    Prod.mk.injEq] at hRun
  obtain ⟨_, -, hValid, -, plan, -, -, ⟨rfl, rfl⟩, rfl⟩ := hRun
  refine ⟨?_, rfl, rfl, rfl, rfl, rfl, rfl, rfl⟩
  rintro ⟨t, ht, hId⟩
  exact (Db.nodup_map_concat.mp hValid.tenantId).2 t ht hId

/-- A new workspace is governed, -/
theorem createWorkspace_founds {user : User} {name : PyStr} {m : TenantMembership}
    (hValid : w.db.Valid) (hRun : (createWorkspace c user name).run w = .ok (tenant, m) w') :
    w'.db.Governed tenant.id := by
  obtain ⟨hNew, -, hTenant, hRole, -, hMembers, hTransfers, -⟩ := createWorkspace_ok hRun
  refine ⟨m, ?_, fun x hx hId => ?_⟩
  · rw [hMembers]
    refine Sole.add (fun y hy => ?_) (isOwnerOf_iff.mpr ⟨hTenant, hRole⟩)
    refine Bool.eq_false_iff.mpr fun hOwner => hNew ?_
    exact (isOwnerOf_iff.mp hOwner).1 ▸ hValid.membershipTenant y hy
  · exact absurd (hId ▸ hValid.transferTenant x (hTransfers ▸ hx)) hNew

/-- and leaves the others governed. -/
theorem createWorkspace_keeps {user : User} {name : PyStr} {m : TenantMembership}
    (hValid : w.db.Valid) (h : w.db.Governed tenantId)
    (hRun : (createWorkspace c user name).run w = .ok (tenant, m) w') :
    w'.db.Governed tenantId := by
  obtain ⟨hNew, -, hTenant, -, -, hMembers, hTransfers, -⟩ := createWorkspace_ok hRun
  obtain ⟨owner, hSole, hFrom⟩ := h
  refine ⟨owner, ?_, hTransfers ▸ hFrom⟩
  rw [hMembers]
  refine hSole.append fun y hy => ?_
  obtain rfl := List.mem_singleton.mp hy
  refine Bool.eq_false_iff.mpr fun hOwner => hNew ?_
  rw [← hTenant, (isOwnerOf_iff.mp hOwner).1, ← (isOwnerOf_iff.mp hSole.mem.2).1]
  exact hValid.membershipTenant owner hSole.mem.1

end Operations

/-! ### Runs -/

section Runs

variable {cfg : Config} {c : Ctx} {s s' : Sys} {e : Event} {w w' : World} {tenantId : Uuid}

theorem handle_keeps {r : Request} {response : Response} (hValid : w.db.Valid)
    (hInvitations : w.db.InvitesNoOwner) (h : w.db.Governed tenantId)
    (hEvolves : Evolves c r.powers w w') (hRun : (handle c r).run w = .ok response w') :
    w'.db.Governed tenantId := by
  by_cases hChanges : r.changesTenancy = true
  · cases r with
    | verifyEmail email code =>
      obtain ⟨⟨⟩, m, hVerify, hRun⟩ := Handler.run_bind_ok.mp hRun
      obtain ⟨-, rfl⟩ := Handler.run_pure_ok.mp hRun
      exact verifyEmail_keeps hInvitations h hVerify
    | createWorkspace token name =>
      obtain ⟨user, m, hUser, hRun⟩ := Handler.run_bind_ok.mp hRun
      obtain ⟨⟨tenant, membership⟩, m', hCreate, hRun⟩ := Handler.run_bind_ok.mp hRun
      obtain ⟨-, rfl⟩ := Handler.run_pure_ok.mp hRun
      have hDb := (requireVerified_ok hUser).1
      exact createWorkspace_keeps (hDb ▸ hValid) (hDb ▸ h) hCreate
    | changeMemberRole token xTenantId userId body =>
      obtain ⟨⟨tenant, actor⟩, m, hGuard, hRun⟩ := Handler.run_bind_ok.mp hRun
      obtain ⟨updated, m', hChange, hRun⟩ := Handler.run_bind_ok.mp hRun
      simp only [Handler.run_query_bind, Handler.run_ensure_bind_ok, Handler.run_pure_ok] at hRun
      obtain ⟨-, -, rfl⟩ := hRun
      obtain ⟨hDb, -, hMember, -⟩ := requireRole_ok hGuard
      exact changeRole_keeps (hDb ▸ hValid) (hDb ▸ h) (hDb ▸ hMember) hChange
    | removeMember token xTenantId userId =>
      obtain ⟨⟨tenant, actor⟩, m, hGuard, hRun⟩ := Handler.run_bind_ok.mp hRun
      obtain ⟨⟨⟩, m', hRemove, hRun⟩ := Handler.run_bind_ok.mp hRun
      obtain ⟨-, rfl⟩ := Handler.run_pure_ok.mp hRun
      have hDb := (requireRole_ok hGuard).1
      exact removeMember_keeps (hDb ▸ hValid) (hDb ▸ h) hRemove
    | leaveTenant token xTenantId =>
      obtain ⟨⟨tenant, actor⟩, m, hGuard, hRun⟩ := Handler.run_bind_ok.mp hRun
      obtain ⟨⟨⟩, m', hLeave, hRun⟩ := Handler.run_bind_ok.mp hRun
      obtain ⟨-, rfl⟩ := Handler.run_pure_ok.mp hRun
      obtain ⟨hDb, -, hMember, -⟩ := getTenantContext_ok hGuard
      have hLoaded := (Db.membership_mem hMember).1
      exact leaveTenant_keeps (hDb ▸ hValid) (hDb ▸ h) (hDb ▸ hLoaded) hLeave
    | initiateTransfer token xTenantId toUserId =>
      obtain ⟨⟨tenant, actor⟩, m, hGuard, hRun⟩ := Handler.run_bind_ok.mp hRun
      obtain ⟨transfer, m', hInitiate, hRun⟩ := Handler.run_bind_ok.mp hRun
      obtain ⟨-, rfl⟩ := Handler.run_pure_ok.mp hRun
      obtain ⟨hDb, -, hMember, -⟩ := requireRole_ok hGuard
      exact initiateTransfer_keeps (hDb ▸ h) (hDb ▸ hMember) hInitiate
    | acceptTransfer token xTenantId =>
      obtain ⟨⟨tenant, actor⟩, m, hGuard, hRun⟩ := Handler.run_bind_ok.mp hRun
      obtain ⟨⟨⟩, m', hAccept, hRun⟩ := Handler.run_bind_ok.mp hRun
      obtain ⟨-, rfl⟩ := Handler.run_pure_ok.mp hRun
      obtain ⟨hDb, -, hMember, -⟩ := getTenantContext_ok hGuard
      exact acceptTransfer_keeps (hDb ▸ hValid) (hDb ▸ h) (hDb ▸ hMember) hAccept
    | getPendingTransfer token xTenantId =>
      obtain ⟨⟨tenant, actor⟩, m, hGuard, hRun⟩ := Handler.run_bind_ok.mp hRun
      obtain ⟨found, m', hGet, hRun⟩ := Handler.run_bind_ok.mp hRun
      simp only [Handler.run_orRaise_bind_ok, Handler.run_pure_ok] at hRun
      obtain ⟨-, -, -, rfl⟩ := hRun
      exact getPendingTransfer_keeps ((requireRole_ok hGuard).1 ▸ h) hGet
    | createInvitation token xTenantId body =>
      obtain ⟨⟨tenant, actor⟩, m, hGuard, hRun⟩ := Handler.run_bind_ok.mp hRun
      obtain ⟨⟨⟩, m', hCap, hRun⟩ := Handler.run_bind_ok.mp hRun
      obtain ⟨invitation, m'', hInvite, hRun⟩ := Handler.run_bind_ok.mp hRun
      obtain ⟨-, rfl⟩ := Handler.run_pure_ok.mp hRun
      have hGuarded : m.db.Governed tenantId := (requireRole_ok hGuard).1 ▸ h
      have hTenancy := ((enforceMemberCap_evolves (c := c) (P := nonTenancy) _).of_ok hCap).tenancy
      exact inviteUser_keeps (hGuarded.of_tenancy (hTenancy.resolve_left (by simp [nonTenancy])))
        hInvite
    | acceptInvitation token invitation =>
      obtain ⟨user, m, hUser, hRun⟩ := Handler.run_bind_ok.mp hRun
      obtain ⟨membership, m', hAccept, hRun⟩ := Handler.run_bind_ok.mp hRun
      obtain ⟨-, rfl⟩ := Handler.run_pure_ok.mp hRun
      have hDb := (requireVerified_ok hUser).1
      exact acceptInvitation_keeps (hDb ▸ hInvitations) (hDb ▸ h) hAccept
    | cancelInvitation token xTenantId invitationId =>
      obtain ⟨⟨tenant, actor⟩, m, hGuard, hRun⟩ := Handler.run_bind_ok.mp hRun
      obtain ⟨⟨⟩, m', hCancel, hRun⟩ := Handler.run_bind_ok.mp hRun
      obtain ⟨-, rfl⟩ := Handler.run_pure_ok.mp hRun
      exact cancelInvitation_keeps ((requireRole_ok hGuard).1 ▸ h) hCancel
    | blockUser token userId inTenant | unblockUser token userId inTenant =>
      obtain ⟨⟨⟩, m, hAdmin, hRun⟩ := Handler.run_bind_ok.mp hRun
      obtain ⟨⟨⟩, m', hBlock, hRun⟩ := Handler.run_bind_ok.mp hRun
      obtain ⟨-, rfl⟩ := Handler.run_pure_ok.mp hRun
      obtain ⟨user, hAdmin⟩ := Handler.run_discard_ok.mp hAdmin
      obtain ⟨p, -, -, -, -, -, -, -, rfl⟩ := requireAdmin_ok.mp hAdmin
      exact setBlocked_keeps h hBlock
    | _ => simp [Request.changesTenancy] at hChanges
  · exact h.of_tenancy (hEvolves.tenancy.resolve_left hChanges)

theorem Step.keeps_owner (hs : s.Sound cfg) (h : Step cfg s e s')
    (hOwned : s.world.db.Governed tenantId) : s'.world.db.Governed tenantId := by
  cases hOutcome : e.outcome with
  | ok response =>
    exact handle_keeps hs.valid hs.invitations hOwned (h.evolves hs) (h.committed hOutcome).1
  | error error => exact h.rolledBack hOutcome ▸ hOwned

/-- A workspace that was created has exactly one owner, whom its pending transfer is from, in every
state that any requests at any times lead to. -/
theorem exactly_one_owner {user : Bearer} {name : PyStr} {tenant : Tenant}
    {membership : TenantMembership} {steps : List (Sys × Event)} {s'' : Sys}
    (hReach : Reachable cfg s) (hStep : Step cfg s e s')
    (hRequest : e.request = .createWorkspace user name)
    (hOk : e.outcome = .ok (.workspace tenant membership)) (hRun : Run (Step cfg) s' steps s'') :
    ∃ owner, (s''.world.db.memberships.filter fun m =>
        m.tenantId = tenant.id ∧ m.role = .owner) = [owner] ∧
      ∀ x ∈ s''.world.db.transfers, x.tenantId = tenant.id → x.fromUserId = owner.userId := by
  have hs := hReach.sound
  have hHandle := (hStep.committed hOk).1
  rw [hRequest] at hHandle
  obtain ⟨u, m, hUser, hHandle⟩ := Handler.run_bind_ok.mp hHandle
  obtain ⟨⟨t, row⟩, m', hCreate, hHandle⟩ := Handler.run_bind_ok.mp hHandle
  obtain ⟨hPair, rfl⟩ := Handler.run_pure_ok.mp hHandle
  obtain ⟨rfl, rfl⟩ := Response.workspace.inj hPair
  have hFounded : s'.world.db.Governed t.id :=
    createWorkspace_founds ((requireVerified_ok hUser).1 ▸ hs.valid) hCreate
  obtain ⟨owner, hSole, hFrom⟩ := (hRun.invariant
    (I := fun m => m.Sound cfg ∧ m.world.db.Governed t.id)
    (fun ⟨hm, hOwned⟩ hStep => ⟨hStep.sound hm, hStep.keeps_owner hm hOwned⟩)
    ⟨hStep.sound hs, hFounded⟩).2
  exact ⟨owner, hSole, hFrom⟩

def founded : Event × Sys :=
  signedIn.sample (seconds 20) (.createWorkspace (.signed signedInToken) "acme")

def triedToLeave : Event × Sys :=
  founded.2.sample (seconds 30) (.leaveTenant (.signed signedInToken) (some "acme"))

/-- The law at that attempt. -/
theorem exactly_one_owner_triedToLeave :
    ∃ owner, (triedToLeave.2.world.db.memberships.filter fun m =>
        m.tenantId = ⟨1⟩ ∧ m.role = .owner) = [owner] ∧
      ∀ x ∈ triedToLeave.2.world.db.transfers, x.tenantId = ⟨1⟩ → x.fromUserId = owner.userId := by
  have hFounded : Step sampleConfig signedIn founded.1 founded.2 ∧
      Reachable sampleConfig founded.2 := signedIn_reachable.sample (by decide) (by trivial)
  have hLeave : Step sampleConfig founded.2 triedToLeave.1 triedToLeave.2 :=
    (hFounded.2.sample (by decide) (by trivial)).1
  have hOk : founded.1.outcome =
      .ok (.workspace { id := ⟨1⟩, name := "acme", slug := "acme" } _) := rfl
  exact exactly_one_owner signedIn_reachable hFounded.1 rfl hOk (.single hLeave)

end Runs

end WxcodeAdm
