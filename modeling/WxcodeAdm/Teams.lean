import WxcodeAdm.Audit.Rows
import WxcodeAdm.Lib.Keyed
import WxcodeAdm.Lib.Simulation
import WxcodeAdm.Lib.Team
import WxcodeAdm.Tenants.Joining

/-! The teams that the database holds, one for each tenant, as teams under the policy of
`Lib.Team`: every committed request makes one act on the team of one tenant, or no act at all, and
the rows of the other tenants stay.  So the part of a run that one tenant sees is a run of its own
team, and each act of it is recorded in the audit log. -/

namespace WxcodeAdm

open Lib

theorem MemberRole.level_injective : Function.Injective MemberRole.level := by
  intro a b h
  cases a <;> cases b <;> simp_all [MemberRole.level]

instance : PartialOrder MemberRole where
  le := fun a b => a.level ≤ b.level
  le_refl := fun _ => Nat.le_refl _
  le_trans := fun _ _ _ => Nat.le_trans
  le_antisymm := fun _ _ h h' => MemberRole.level_injective (Nat.le_antisymm h h')

instance : OrderTop MemberRole where
  top := .owner
  le_top := fun r => by
    change r.level ≤ 4
    cases r <;> decide

def TenantMembership.key (m : TenantMembership) : Uuid × Uuid := (m.userId, m.tenantId)

def TenantMembership.seat (m : TenantMembership) : Seat MemberRole :=
  ⟨m.role, m.billingAccess, m.isBlocked⟩

def Invitation.key (i : Invitation) : String × Uuid := (i.email, i.tenantId)

def Invitation.invite (i : Invitation) : Invite Uuid MemberRole :=
  ⟨i.role, i.billingAccess, i.invitedById, i.acceptedAt.isSome⟩

namespace Db

variable (db : Db)

/-- The team of a tenant. -/
def teamOf (tenantId : Uuid) : Team Uuid String MemberRole where
  founded := (db.tenant tenantId).isSome
  suspended := (db.tenant tenantId).any fun t => t.isSuspended
  deleted := (db.tenant tenantId).any fun t => t.isDeleted
  seat := fun userId =>
    (lookup TenantMembership.key (userId, tenantId) db.memberships).map TenantMembership.seat
  invite := fun email =>
    (lookup Invitation.key (email, tenantId) db.invitations).map Invitation.invite
  offer := (db.transferOf tenantId).map fun x => (x.fromUserId, x.toUserId)

variable {db} {db' : Db}

theorem membership_eq (userId tenantId : Uuid) :
    db.membership userId tenantId =
      lookup TenantMembership.key (userId, tenantId) db.memberships := by
  simp only [membership, lookup, TenantMembership.key, Prod.mk.injEq]

theorem teamOf_seat (userId tenantId : Uuid) : (db.teamOf tenantId).seat userId =
    (db.membership userId tenantId).map TenantMembership.seat := by
  rw [membership_eq]
  rfl

/-- The team of a tenant is made of four tables. -/
theorem teamOf_congr (hTenants : db'.tenants = db.tenants)
    (hMembers : db'.memberships = db.memberships) (hInvitations : db'.invitations = db.invitations)
    (hTransfers : db'.transfers = db.transfers) (tenantId : Uuid) :
    db'.teamOf tenantId = db.teamOf tenantId := by
  simp only [teamOf, tenant, transferOf, hTenants, hMembers, hInvitations, hTransfers]

section Rows

variable {m : TenantMembership} {tenantId : Uuid}

/-- The places of a tenant when the row of one user gets another seat, or none. -/
theorem teamOf_place {rows : List TenantMembership} {gone : Bool}
    {place : Option TenantMembership} (hRows : ∀ k, lookup TenantMembership.key k rows =
      if m.key = k then place else lookup TenantMembership.key k db.memberships) (tenantId : Uuid) :
    ({ db with memberships := rows, stale := gone } : Db).teamOf tenantId =
      if m.tenantId = tenantId
      then (db.teamOf tenantId).place m.userId (place.map TenantMembership.seat)
      else db.teamOf tenantId := by
  refine Team.ext (by split <;> rfl) (by split <;> rfl) (by split <;> rfl)
    (funext fun userId => ?_) (by split <;> rfl) (by split <;> rfl)
  simp only [teamOf, hRows, TenantMembership.key, Prod.mk.injEq]
  by_cases hTenant : m.tenantId = tenantId
  · rw [if_pos hTenant, Team.place_seat]
    by_cases hUser : userId = m.userId
    · rw [if_pos ⟨hUser.symm, hTenant⟩, if_pos hUser]
    · rw [if_neg fun h => hUser h.1.symm, if_neg hUser]
  · rw [if_neg hTenant, if_neg fun h => hTenant h.2]

theorem teamOf_updateMembership (hKeys : (db.memberships.map TenantMembership.key).Nodup)
    (hIds : (db.memberships.map fun m => m.id).Nodup) (hm : m ∈ db.memberships)
    {f : TenantMembership → TenantMembership} (hKey : ∀ x, (f x).key = x.key) (tenantId : Uuid) :
    (db.updateMembership m.id f).teamOf tenantId =
      if m.tenantId = tenantId then (db.teamOf tenantId).place m.userId (some (f m).seat)
      else db.teamOf tenantId :=
  teamOf_place (fun _ => lookup_update hKeys hIds hm hKey) tenantId

/-- A member with another role and billing access, whichever of the two has changed. -/
theorem teamOf_saveMembership (hValid : db.Valid) (hm : m ∈ db.memberships) (role : MemberRole)
    (billing : Bool) (tenantId : Uuid) :
    (db.saveMembership m { m with role, billingAccess := billing }).teamOf tenantId =
      if m.tenantId = tenantId
      then (db.teamOf tenantId).place m.userId (some { m.seat with role, billing })
      else db.teamOf tenantId := by
  rw [saveMembership]
  split
  · rename_i hSame
    have hRows (k) : lookup TenantMembership.key k db.memberships =
        if m.key = k then some { m with role, billingAccess := billing }
        else lookup TenantMembership.key k db.memberships := by
      split
      · rename_i hKey
        rw [hSame]
        exact (lookup_iff hValid.membershipUserTenant).mpr ⟨hm, hKey⟩
      · rfl
    exact teamOf_place hRows tenantId
  · rw [teamOf_updateMembership hValid.membershipUserTenant hValid.membershipId hm (by intro; rfl)]
    have hRole : (if role = m.role then m.role else role) = role := by split <;> simp_all
    have hBilling : (if billing = m.billingAccess then m.billingAccess else billing) = billing := by
      split <;> simp_all
    simp only [TenantMembership.seat, hRole, hBilling]

/-- The place of a member. -/
theorem seat_of_mem (hKeys : (db.memberships.map TenantMembership.key).Nodup)
    (hm : m ∈ db.memberships) : (db.teamOf m.tenantId).seat m.userId = some m.seat :=
  congrArg (Option.map TenantMembership.seat) ((lookup_iff hKeys).mpr ⟨hm, rfl⟩)

/-- A role that is set on a row, as it was loaded. -/
theorem teamOf_setRole (hKeys : (db.memberships.map TenantMembership.key).Nodup)
    (hIds : (db.memberships.map fun m => m.id).Nodup) (hm : m ∈ db.memberships)
    {loaded : TenantMembership} (hLoaded : loaded.id = m.id) (role : MemberRole) (tenantId : Uuid) :
    (db.setRole (some loaded) role).teamOf tenantId =
      if m.tenantId = tenantId then (db.teamOf tenantId).reseat m.userId fun s => { s with role }
      else db.teamOf tenantId := by
  have hAfter := teamOf_updateMembership hKeys hIds hm
    (f := fun m => { m with role }) (fun _ => rfl) tenantId
  rw [setRole, hLoaded, hAfter]
  split
  · rename_i h
    rw [Team.reseat, ← h, seat_of_mem hKeys hm]
    rfl
  · rfl

theorem teamOf_setRole_membership (hValid : db.Valid) (userId inTenant : Uuid) (role : MemberRole)
    (tenantId : Uuid) :
    (db.setRole (db.membership userId inTenant) role).teamOf tenantId =
      if inTenant = tenantId then (db.teamOf tenantId).reseat userId fun s => { s with role }
      else db.teamOf tenantId := by
  cases hFound : db.membership userId inTenant with
  | none =>
    split
    · rename_i h
      rw [Team.reseat_none (by rw [teamOf_seat, ← h, hFound]; rfl)]
      rfl
    · rfl
  | some m =>
    obtain ⟨hm, rfl, rfl⟩ := membership_mem hFound
    exact teamOf_setRole hValid.membershipUserTenant hValid.membershipId hm rfl role tenantId

theorem setRole_columns {β : Type} {f : TenantMembership → β}
    (hf : ∀ m role, f { m with role } = f m) (row : Option TenantMembership) (role : MemberRole) :
    (db.setRole row role).memberships.map f = db.memberships.map f := by
  cases row with
  | none => rfl
  | some m => exact map_update (fun m => hf m role) db.memberships

theorem setRole_offers (row : Option TenantMembership) (role : MemberRole) :
    (db.setRole row role).transfers = db.transfers := by
  cases row <;> rfl

theorem teamOf_deleteMembership (hValid : db.Valid) (hm : m ∈ db.memberships) (tenantId : Uuid) :
    (db.deleteMembership m.id).teamOf tenantId =
      if m.tenantId = tenantId then (db.teamOf tenantId).place m.userId none
      else db.teamOf tenantId :=
  teamOf_place (fun _ => lookup_delete hValid.membershipUserTenant hValid.membershipId hm) tenantId

theorem teamOf_addMembership (hNew : db.membership m.userId m.tenantId = none) (tenantId : Uuid) :
    ({ db with memberships := db.memberships ++ [m] } : Db).teamOf tenantId =
      if m.tenantId = tenantId then (db.teamOf tenantId).place m.userId (some m.seat)
      else db.teamOf tenantId :=
  teamOf_place (fun _ => lookup_insert ((membership_eq _ _).symm.trans hNew)) tenantId

/-- A tenant that is added with its first member. -/
theorem teamOf_found {t : Tenant} (hNew : db.tenant t.id = none) (hFlags : t.isSuspended = false)
    (hDeleted : t.isDeleted = false) (hIn : m.tenantId = t.id)
    (hNobody : db.membership m.userId m.tenantId = none) (hTenants : db'.tenants = db.tenants ++ [t])
    (hMembers : db'.memberships = db.memberships ++ [m])
    (hInvitations : db'.invitations = db.invitations) (hTransfers : db'.transfers = db.transfers)
    (tenantId : Uuid) :
    db'.teamOf tenantId =
      if t.id = tenantId
      then ({ db.teamOf tenantId with founded := true } : Team _ _ _).place m.userId (some m.seat)
      else db.teamOf tenantId := by
  have hMember := teamOf_addMembership hNobody tenantId
  have hTenant : db'.tenant tenantId = if t.id = tenantId then some t else db.tenant tenantId := by
    change lookup (fun t : Tenant => t.id) tenantId db'.tenants = _
    rw [hTenants]
    exact lookup_insert hNew
  have hSeats : db'.teamOf tenantId =
      { ({ db with memberships := db.memberships ++ [m] } : Db).teamOf tenantId with
        founded := (db'.tenant tenantId).isSome
        suspended := (db'.tenant tenantId).any fun t => t.isSuspended
        deleted := (db'.tenant tenantId).any fun t => t.isDeleted } := by
    simp only [teamOf, transferOf, hMembers, hInvitations, hTransfers]
  rw [hSeats, hMember, hTenant, hIn]
  split
  · rename_i h
    subst h
    simp only [Option.isSome_some, Option.any_some, hFlags, hDeleted]
    refine Team.ext rfl ?_ ?_ rfl rfl rfl <;> simp [teamOf, hNew, Team.place]
  · rfl

/-- The invitations of a tenant when the row of one address gets another, or none. -/
theorem teamOf_setInvite {i : Invitation} {rows : List Invitation} {invitation : Option Invitation}
    (hRows : ∀ k, lookup Invitation.key k rows =
      if i.key = k then invitation else lookup Invitation.key k db.invitations) (tenantId : Uuid) :
    ({ db with invitations := rows } : Db).teamOf tenantId =
      if i.tenantId = tenantId
      then (db.teamOf tenantId).setInvite i.email (invitation.map Invitation.invite)
      else db.teamOf tenantId := by
  refine Team.ext (by split <;> rfl) (by split <;> rfl) (by split <;> rfl) (by split <;> rfl)
    (funext fun email => ?_) (by split <;> rfl)
  simp only [teamOf, hRows, Invitation.key, Prod.mk.injEq]
  by_cases hTenant : i.tenantId = tenantId
  · rw [if_pos hTenant, Team.setInvite_invite]
    by_cases hEmail : email = i.email
    · rw [if_pos ⟨hEmail.symm, hTenant⟩, if_pos hEmail]
    · rw [if_neg fun h => hEmail h.1.symm, if_neg hEmail]
  · rw [if_neg hTenant, if_neg fun h => hTenant h.2]

/-- A membership that is made of an invitation, which counts as accepted from then on. -/
theorem teamOf_join {i : Invitation} (hKeys : (db.invitations.map Invitation.key).Nodup)
    (hIds : (db.invitations.map fun i => i.id).Nodup) (hi : i ∈ db.invitations) (now : Nat)
    (hIn : m.tenantId = i.tenantId) (hNew : db.membership m.userId m.tenantId = none)
    (tenantId : Uuid) :
    (db.join now m i).teamOf tenantId =
      if i.tenantId = tenantId
      then ((db.teamOf tenantId).place m.userId (some m.seat)).setInvite i.email
        (some { i.invite with accepted := true })
      else db.teamOf tenantId := by
  have hRows (k) := lookup_update (k := k) hKeys hIds hi
    (f := fun i => { i with acceptedAt := some now }) fun _ => rfl
  have hJoined := @teamOf_setInvite { db with memberships := db.memberships ++ [m] } _ _ _ hRows
  refine (hJoined tenantId).trans ?_
  rw [teamOf_addMembership hNew, hIn]
  split <;> rfl

/-- The offer of a tenant when its row becomes another, or none. -/
theorem teamOf_offer {rows : List OwnershipTransfer} {transfer : Option OwnershipTransfer}
    {inTenant : Uuid} (hRows : ∀ k, lookup (fun x => x.tenantId) k rows =
      if inTenant = k then transfer else db.transferOf k) (tenantId : Uuid) :
    ({ db with transfers := rows } : Db).teamOf tenantId =
      if inTenant = tenantId
      then { db.teamOf tenantId with
        offer := transfer.map fun x => (x.fromUserId, x.toUserId) }
      else db.teamOf tenantId := by
  refine Team.ext (by split <;> rfl) (by split <;> rfl) (by split <;> rfl) (by split <;> rfl)
    (by split <;> rfl) ?_
  change (lookup (fun x => x.tenantId) tenantId rows).map _ = _
  rw [hRows]
  split <;> rfl

/-- The flags of a tenant when its row changes. -/
theorem teamOf_updateTenant {t : Tenant} (ht : db.tenant t.id = some t) {f : Tenant → Tenant}
    (hId : ∀ x, (f x).id = x.id) (tenantId : Uuid) :
    (db.updateTenant t.id f).teamOf tenantId =
      if t.id = tenantId
      then { db.teamOf tenantId with suspended := (f t).isSuspended, deleted := (f t).isDeleted }
      else db.teamOf tenantId := by
  have hRow : (db.updateTenant t.id f).tenant tenantId =
      if t.id = tenantId then some (f t) else db.tenant tenantId := by
    change lookup (fun x : Tenant => x.id) tenantId (db.tenants.map _) = _
    rw [lookup_map fun x => by split <;> simp [hId]]
    change (db.tenant tenantId).map _ = _
    split
    · rename_i h
      rw [← h, ht, Option.map_some, if_pos rfl]
    · rename_i h
      cases hFound : db.tenant tenantId with
      | none => rfl
      | some x =>
        have hx : x.id = tenantId := by simpa using List.find?_some hFound
        rw [Option.map_some, if_neg fun hSame => h (hSame.symm.trans hx)]
  unfold teamOf
  rw [hRow]
  split
  · rename_i h
    rw [← h, ht]
    rfl
  · rfl

end Rows

/-- One act on the team of a tenant, which leaves those of the others. -/
structure ActsOn (db db' : Db) (tenantId : Uuid) (act : TeamAct Uuid String MemberRole) : Prop where
  step : Team.Step .admin (db.teamOf tenantId) act (db'.teamOf tenantId)
  others : ∀ other, other ≠ tenantId → db'.teamOf other = db.teamOf other

/-- One act, where each team after it is known. -/
theorem ActsOn.of_ite {tenantId : Uuid} {act : TeamAct Uuid String MemberRole}
    (hAllows : (db.teamOf tenantId).Allows .admin act)
    (hAfter : ∀ other, db'.teamOf other =
      if tenantId = other then (db.teamOf other).after .admin act else db.teamOf other) :
    ActsOn db db' tenantId act where
  step := ⟨hAllows, by rw [hAfter, if_pos rfl]⟩
  others := fun other hOther => by rw [hAfter, if_neg hOther.symm]

/-- A tenant sees an act on its own team, and no other. -/
theorem ActsOn.seen {inTenant : Uuid} {act : TeamAct Uuid String MemberRole}
    (h : ActsOn db db' inTenant act) (tenantId : Uuid) :
    db'.teamOf tenantId = db.teamOf tenantId ∨
      inTenant = tenantId ∧ Team.Step .admin (db.teamOf tenantId) act (db'.teamOf tenantId) := by
  by_cases hTenant : tenantId = inTenant
  · exact .inr ⟨hTenant.symm, hTenant ▸ h.step⟩
  · exact .inl (h.others tenantId hTenant)

end Db

/-! ### The operations -/

section Operations

variable {c : Ctx} {w w' : World} {tenant : Tenant} {bearer : Bearer} {header : Option String}
  {minimum : MemberRole} {actor : TenantMembership}

/-- Who has passed the guard of a tenant can act in its team. -/
theorem Acts.acting (h : Acts c w bearer header minimum tenant actor) (hValid : w.db.Valid) :
    (w.db.teamOf tenant.id).Acting actor.userId actor.seat := by
  obtain ⟨m, hGuard⟩ := h.guard
  obtain ⟨u, s₁, hUser, hGuard⟩ := Handler.run_bind_ok.mp hGuard
  simp only [Handler.run_orRaise_bind_ok, Handler.run_query_bind, Handler.run_ensure_bind_ok,
    Handler.run_pure_ok, Prod.mk.injEq] at hGuard
  obtain ⟨_, -, t, -, hDeleted, hSuspended, m', -, hBlocked, ⟨rfl, rfl⟩, -⟩ := hGuard
  have hTenant := hValid.tenant_of_mem h.known
  refine ⟨⟨?_, ?_, ?_⟩, ?_, hBlocked⟩
  · simp [Db.teamOf, hTenant]
  · simpa [Db.teamOf, hTenant] using hSuspended
  · simpa [Db.teamOf, hTenant] using hDeleted
  · rw [Db.teamOf_seat, h.row]
    rfl

/-- Who has passed the guard of a tenant bears a token of their own. -/
theorem Acts.ownToken (h : Acts c w bearer header minimum tenant actor) :
    ∃ p, bearer = .signed p ∧ p.sub = actor.userId := by
  obtain ⟨m, hGuard⟩ := h.guard
  obtain ⟨u, s₁, hUser, hGuard⟩ := Handler.run_bind_ok.mp hGuard
  simp only [Handler.run_orRaise_bind_ok, Handler.run_query_bind, Handler.run_ensure_bind_ok,
    Handler.run_pure_ok, Prod.mk.injEq] at hGuard
  obtain ⟨_, -, t, -, -, -, m', hRow, -, ⟨rfl, rfl⟩, -⟩ := hGuard
  obtain ⟨v, m'', hCurrent, hUser⟩ := Handler.run_bind_ok.mp hUser
  obtain ⟨p, rfl, -, -, -, hSub, -, -, rfl⟩ := getCurrentUser_ok.mp hCurrent
  simp only [Handler.run_ensure_bind_ok, Handler.run_pure_ok] at hUser
  obtain ⟨-, rfl, -⟩ := hUser
  exact ⟨p, rfl, (Db.user_id hSub).symm.trans (Db.membership_mem hRow).2.1.symm⟩

/-- The row of a member, and the place that it gives. -/
theorem seat_of_membership {db : Db} {userId tenantId : Uuid} {m : TenantMembership}
    (h : db.membership userId tenantId = some m) :
    (db.teamOf tenantId).seat userId = some m.seat := by
  rw [Db.teamOf_seat, h]
  rfl

variable {cache : Redis}

theorem changeRole_actsOn {updated : TenantMembership} {userId : Uuid} {role : MemberRole}
    {billing : Option Bool} (hValid : w.db.Valid)
    (hActs : Acts c w bearer header .admin tenant actor)
    (hRun : (changeRole tenant actor userId role billing).run ⟨w.db, cache⟩ = .ok updated w') :
    ∃ billing, w.db.ActsOn w'.db tenant.id (.assigns actor.userId userId role billing) := by
  simp only [changeRole, Handler.run_query_bind, Handler.run_orRaise_bind_ok,
    Handler.run_ensure_bind_ok, Handler.run_exec_bind, Handler.run_pure_ok] at hRun
  obtain ⟨target, hFound, hSelf, hDemotes, hRole, -, rfl⟩ := hRun
  have hTarget := asLoaded_of_valid hValid hActs.mem.1 hFound
  obtain ⟨hMem, rfl, hTenant⟩ := Db.membership_mem hTarget
  have hSeat := seat_of_membership hTarget
  refine ⟨billing.getD target.billingAccess, .of_ite ?_ fun other => ?_⟩
  · refine ⟨actor.seat, target.seat, hActs.acting hValid, hActs.level, hSeat, hRole, ?_⟩
    intro hOwner
    refine ⟨?_, fun hSame => hSelf ⟨hOwner, hSame⟩⟩
    by_contra hNot
    exact hDemotes ⟨hOwner, hNot⟩
  · change (w.db.saveMembership target _).teamOf other = _
    rw [Db.teamOf_saveMembership hValid hMem, hTenant]
    split
    · rename_i hOther
      subst hOther
      rw [Team.after, Team.reseat, hSeat]
      rfl
    · rfl

theorem removeMember_actsOn {userId : Uuid} (hValid : w.db.Valid)
    (hActs : Acts c w bearer header .admin tenant actor)
    (hRun : (removeMember tenant actor userId).run ⟨w.db, cache⟩ = .ok () w') :
    w.db.ActsOn w'.db tenant.id (.removes actor.userId userId) := by
  simp only [removeMember, Handler.run_query_bind, Handler.run_orRaise_bind_ok,
    Handler.run_ensure_bind_ok, Handler.run_exec, Outcome.ok.injEq, true_and] at hRun
  obtain ⟨hOther, target, hTarget, hRole, rfl⟩ := hRun
  obtain ⟨hMem, rfl, hTenant⟩ := Db.membership_mem hTarget
  refine .of_ite ⟨actor.seat, target.seat, hActs.acting hValid, hActs.level,
    seat_of_membership hTarget, hRole, hOther⟩ fun other => ?_
  change (w.db.deleteMembership target.id).teamOf other = _
  rw [Db.teamOf_deleteMembership hValid hMem, hTenant]
  rfl

theorem leaveTenant_actsOn (hValid : w.db.Valid)
    (hActs : Acts c w bearer header actor.role tenant actor)
    (hRun : (leaveTenant actor tenant.id actor.userId).run ⟨w.db, cache⟩ = .ok () w') :
    w.db.ActsOn w'.db tenant.id (.leaves actor.userId) := by
  simp only [leaveTenant, Handler.run_query_bind, Handler.run_orRaise_bind_ok,
    Handler.run_ensure_bind_ok, Handler.run_exec, Outcome.ok.injEq, true_and] at hRun
  obtain ⟨row, hFound, hRole, rfl⟩ := hRun
  have hRow := asLoaded_of_valid hValid hActs.mem.1 hFound
  obtain rfl : row = actor := Option.some.inj (hRow.symm.trans hActs.row)
  refine .of_ite ⟨row.seat, hActs.acting hValid, hRole⟩ fun other => ?_
  change (w.db.deleteMembership row.id).teamOf other = _
  rw [Db.teamOf_deleteMembership hValid hActs.mem.1, hActs.mem.2]
  rfl

/-- The stale transfer of the tenant is gone, and nothing else. -/
theorem clearStaleTransfer_rows (hValid : w.db.Valid)
    (hRun : (clearStaleTransfer c tenant.id).run w = .ok () w') :
    (∃ rows, w'.db = { w.db with transfers := rows }) ∧
      ∀ k, w'.db.transferOf k = if tenant.id = k then none else w.db.transferOf k := by
  simp only [clearStaleTransfer, Handler.run_query_bind] at hRun
  split at hRun
  · rename_i hNone
    obtain ⟨-, rfl⟩ := Handler.run_pure_ok.mp hRun
    refine ⟨⟨_, rfl⟩, fun k => ?_⟩
    split
    · rename_i hSame
      rw [← hSame, hNone]
    · rfl
  · rename_i existing hFound
    simp only [Handler.run_ensure_bind_ok, Handler.run_exec_bind, run_flush_ok] at hRun
    obtain ⟨-, -, rfl⟩ := hRun
    obtain ⟨hMem, hTenant⟩ := (lookup_iff hValid.transferTenantId).mp hFound
    refine ⟨⟨_, rfl⟩, fun k => ?_⟩
    have hDelete := lookup_delete (k := k) hValid.transferTenantId hValid.transferId hMem
    rw [hTenant] at hDelete
    simpa only [Db.transferOf, Db.deleteTransfers, lookup, decide_not] using hDelete

theorem initiateTransfer_actsOn {toUserId : Uuid} {x : OwnershipTransfer} (hValid : w.db.Valid)
    (hActs : Acts c w bearer header .owner tenant actor)
    (hRun : (initiateTransfer c tenant actor toUserId).run ⟨w.db, cache⟩ = .ok x w') :
    w.db.ActsOn w'.db tenant.id (.offers actor.userId toUserId) := by
  simp only [initiateTransfer, Handler.run_query_bind, Handler.run_ensure_bind_ok] at hRun
  obtain ⟨hRole, hOther, hTarget, hRun⟩ := hRun
  obtain ⟨target, hFound⟩ := Option.isSome_iff_exists.mp hTarget
  obtain ⟨⟨⟩, m, hClear, hRun⟩ := Handler.run_bind_ok.mp hRun
  simp only [Handler.run_exec_bind, run_flush_bind_ok, Handler.run_pure_ok] at hRun
  obtain ⟨-, -, rfl⟩ := hRun
  obtain ⟨⟨rows, hDb⟩, hRows⟩ := clearStaleTransfer_rows (w := ⟨w.db, cache⟩) hValid hClear
  refine .of_ite ⟨⟨actor.seat, hActs.acting hValid, hRole⟩, ?_, hOther⟩ fun other => ?_
  · simp [seat_of_membership hFound]
  · have hOffers (k : Uuid) : lookup (fun x => x.tenantId) k
        (m.db.transfers ++ [offeredTransfer c tenant actor toUserId]) =
        if tenant.id = k then some (offeredTransfer c tenant actor toUserId)
        else w.db.transferOf k := by
      rw [lookup_concat]
      change (m.db.transferOf k).or (if tenant.id = k then _ else _) = _
      rw [hRows]
      split
      · rfl
      · exact Option.or_none
    have hAfter := Db.teamOf_offer hOffers other
    rw [hDb] at hAfter ⊢
    exact hAfter

theorem acceptTransfer_actsOn (hValid : w.db.Valid)
    (hActs : Acts c w bearer header actor.role tenant actor)
    (hRun : (acceptTransfer c tenant.id actor.userId).run ⟨w.db, cache⟩ = .ok () w') :
    ∃ owner, w.db.ActsOn w'.db tenant.id (.accepts owner actor.userId) := by
  simp only [acceptTransfer, swapOwner, Handler.run_query_bind, Handler.run_orRaise_bind_ok,
    Handler.run_ite_ok, Handler.run_exec_bind, Handler.run_throw_ok, and_false, false_or,
    Handler.run_exec, Outcome.ok.injEq, true_and] at hRun
  rw [hActs.row] at hRun
  obtain ⟨x, hFound, hLive, rfl⟩ := hRun
  have hMem := List.mem_of_find?_eq_some hFound
  obtain ⟨hTenant, hHeir⟩ : x.tenantId = tenant.id ∧ x.toUserId = actor.userId := by
    simpa using List.find?_some hFound
  have hOffer : w.db.transferOf tenant.id = some x :=
    (lookup_iff hValid.transferTenantId).mpr ⟨hMem, hTenant⟩
  refine ⟨x.fromUserId, .of_ite ⟨⟨actor.seat, hActs.acting hValid⟩, ?_⟩ fun other => ?_⟩
  · simp [Db.teamOf, hOffer, hHeir]
  · have hDemoted := Db.teamOf_setRole_membership hValid x.fromUserId tenant.id .admin other
    generalize hMid : w.db.setRole (w.db.membership x.fromUserId tenant.id) .admin = mid at hDemoted
    -- the row of the heir has its key and its id still
    have hColumns {β : Type} (f : TenantMembership → β) (hf : ∀ m role, f { m with role } = f m) :
        mid.memberships.map f = w.db.memberships.map f := hMid ▸ Db.setRole_columns hf _ _
    have hHeirs : (actor.id, actor.key) ∈ mid.memberships.map fun m => (m.id, m.key) :=
      hColumns (fun m => (m.id, m.key)) (fun _ _ => rfl) ▸ List.mem_map_of_mem hActs.mem.1
    obtain ⟨row, hRow, hSame⟩ := List.mem_map.mp hHeirs
    obtain ⟨hId, hKey⟩ := Prod.mk.inj hSame
    obtain ⟨hUser, hIn⟩ : row.userId = actor.userId ∧ row.tenantId = tenant.id :=
      ⟨congrArg Prod.fst hKey, (congrArg Prod.snd hKey).trans hActs.mem.2⟩
    have hKeys : (mid.memberships.map TenantMembership.key).Nodup :=
      hColumns TenantMembership.key (fun _ _ => rfl) ▸ hValid.membershipUserTenant
    have hIds : (mid.memberships.map fun m => m.id).Nodup :=
      hColumns (fun m => m.id) (fun _ _ => rfl) ▸ hValid.membershipId
    have hCrowned := Db.teamOf_setRole hKeys hIds hRow hId.symm .owner other
    have hOffers (k : Uuid) : lookup (fun x => x.tenantId) k
        ((mid.setRole (some actor) .owner).deleteTransfers fun y => y.id = x.id).transfers =
        if tenant.id = k then none else (mid.setRole (some actor) .owner).transferOf k := by
      have hRows := lookup_delete (k := k) hValid.transferTenantId hValid.transferId hMem
      rw [hTenant] at hRows
      simpa only [Db.transferOf, Db.deleteTransfers, lookup, decide_not, Db.setRole_offers,
        ← hMid] using hRows
    refine (Db.teamOf_offer hOffers other).trans ?_
    rw [hCrowned, hDemoted, hUser, hIn]
    split <;> rfl

theorem inviteUser_actsOn {body : InviteRequest} {i : Invitation} (hValid : w.db.Valid)
    (hActs : Acts c w bearer header .admin tenant actor)
    (hRun : (inviteUser c tenant actor body).run ⟨w.db, cache⟩ = .ok i w') :
    w.db.ActsOn w'.db tenant.id
      (.invites actor.userId body.email body.role.role body.billingAccess) := by
  simp only [inviteUser, enqueueJob, Handler.run_query_bind, Handler.run_ensure_bind_ok,
    Handler.run_exec_bind, run_flush_bind_ok, Handler.run_store_bind, Handler.run_pure_ok] at hRun
  obtain ⟨-, -, -, hAfter, -, rfl⟩ := hRun
  have hNew : lookup Invitation.key (body.email, tenant.id) w.db.invitations = none :=
    lookup_none.mpr (Db.nodup_map_concat.mp hAfter.invitationEmailTenant).2
  refine .of_ite ⟨⟨actor.seat, hActs.acting hValid, hActs.level⟩, ?_, body.role.notOwner⟩
    fun other => ?_
  · simp [Db.teamOf, hNew]
  · exact Db.teamOf_setInvite (i := invitationFor c tenant actor body)
      (fun k => lookup_insert hNew) other

theorem cancelInvitation_actsOn {invitationId : Uuid} (hValid : w.db.Valid)
    (hActs : Acts c w bearer header .admin tenant actor)
    (hRun : (cancelInvitation tenant.id invitationId).run ⟨w.db, cache⟩ = .ok () w') :
    ∃ email, w.db.ActsOn w'.db tenant.id (.cancels actor.userId email) := by
  simp only [cancelInvitation, Handler.run_query_bind, Handler.run_orRaise_bind_ok,
    Handler.run_ensure_bind_ok, Handler.run_exec, Outcome.ok.injEq, true_and] at hRun
  obtain ⟨i, hFound, hPending, rfl⟩ := hRun
  have hMem := List.mem_of_find?_eq_some hFound
  obtain ⟨-, hTenant⟩ : i.id = invitationId ∧ i.tenantId = tenant.id := by
    simpa using List.find?_some hFound
  have hRow : lookup Invitation.key (i.email, tenant.id) w.db.invitations = some i :=
    (lookup_iff hValid.invitationEmailTenant).mpr ⟨hMem, by rw [hTenant]⟩
  refine ⟨i.email, .of_ite ⟨⟨actor.seat, hActs.acting hValid, hActs.level⟩, i.invite, ?_, ?_⟩
    fun other => ?_⟩
  · simp [Db.teamOf, hRow]
  · simp [Invitation.invite, hPending]
  · have hRows (k) := lookup_delete (k := k) hValid.invitationEmailTenant hValid.invitationId hMem
    have hAfter := Db.teamOf_setInvite hRows other
    rw [hTenant] at hAfter
    exact hAfter

theorem setBlocked_actsOn {userId tenantId : Uuid} {blocked : Bool} (hValid : w.db.Valid)
    (hRun : (setBlocked userId tenantId blocked).run w = .ok () w') :
    w.db.ActsOn w'.db tenantId (.bars userId blocked) := by
  simp only [setBlocked, Handler.run_query_bind, Handler.run_orRaise_bind_ok, Handler.run_exec,
    Outcome.ok.injEq, true_and] at hRun
  obtain ⟨m, hFound, rfl⟩ := hRun
  obtain ⟨hMem, rfl, rfl⟩ := Db.membership_mem hFound
  have hSeat := seat_of_membership hFound
  refine .of_ite (by simp [Team.Allows, hSeat]) fun other => ?_
  have hAfter := Db.teamOf_updateMembership hValid.membershipUserTenant hValid.membershipId hMem
    (f := fun m => { m with isBlocked := blocked }) (fun _ => rfl) other
  refine hAfter.trans ?_
  split
  · rename_i hOther
    subst hOther
    rw [Team.after, Team.reseat, hSeat]
    rfl
  · rfl

/-- The invitation that a user takes up is open, and the user is no member yet. -/
theorem join_actsOn {db : Db} {i : Invitation} {m : TenantMembership}
    (hKeys : (db.invitations.map Invitation.key).Nodup)
    (hIds : (db.invitations.map fun i => i.id).Nodup) (hi : i ∈ db.invitations)
    (hPending : i.acceptedAt = none) (hIn : m.tenantId = i.tenantId)
    (hNew : db.membership m.userId m.tenantId = none)
    (hSeat : m.seat = ⟨i.role, i.billingAccess, false⟩) (now : Nat) :
    db.ActsOn (db.join now m i) i.tenantId (.joins m.userId i.email i.invite) := by
  refine .of_ite ⟨?_, ?_, ?_⟩ fun other => ?_
  · rw [Db.teamOf_seat, ← hIn, hNew]
    rfl
  · exact congrArg (Option.map Invitation.invite) ((lookup_iff hKeys).mpr ⟨hi, rfl⟩)
  · simp [Invitation.invite, hPending]
  · rw [Db.teamOf_join hKeys hIds hi now hIn hNew, hSeat]
    rfl

theorem acceptInvitation_actsOn {user : User} {token : TimedToken InvitationPayload}
    {m : TenantMembership} (hValid : w.db.Valid) (hUser : w.db.user user.id = some user)
    (hRun : (acceptInvitation c user token).run ⟨w.db, cache⟩ = .ok m w') :
    ∃ i, w.db.Redeems c user token i ∧ m.tenantId = i.tenantId ∧
      w.db.ActsOn w'.db i.tenantId (.joins user.id i.email i.invite) := by
  obtain ⟨i, hRedeems, rfl, hDb⟩ := acceptInvitation_ok hUser hRun
  rw [hDb]
  exact ⟨i, hRedeems, rfl, join_actsOn (m := invitedMembership c 0 user i)
    hValid.invitationEmailTenant hValid.invitationId hRedeems.mem hRedeems.pending rfl
    hRedeems.newcomer rfl c.now⟩

/-- An invitation of the user to the tenant that the user has still to take up. -/
structure Db.Awaits (db : Db) (user : User) (tenantId : Uuid) (now : Nat) (i : Invitation) :
    Prop where
  mem : i ∈ db.invitations
  address : i.email = user.email
  inTenant : i.tenantId = tenantId
  pending : i.acceptedAt = none
  live : now < i.expiresAt

/-- What some rounds of the loop of `auto_join_pending_invitations` have made of the team of a
tenant: nothing, or the user has joined it. -/
structure Rounds (user : User) (tenantId : Uuid) (now : Nat) (db : Db) (acc : Db) : Prop where
  keys : (acc.invitations.map Invitation.key).Nodup
  ids : (acc.invitations.map fun i => i.id).Nodup
  team : acc.teamOf tenantId = db.teamOf tenantId ∨
    ((acc.teamOf tenantId).seat user.id).isSome = true ∧ ∃ i, db.Awaits user tenantId now i ∧
      Team.Step .admin (db.teamOf tenantId) (.joins user.id i.email i.invite) (acc.teamOf tenantId)

/-- A round redeems its invitation or does nothing, and leaves the other invitations. -/
theorem Rounds.round {user : User} {tenantId : Uuid} {db : Db}
    {acc : Db × List TenantMembership} {i : Invitation} (h : Rounds user tenantId c.now db acc.1)
    (hOld : i ∈ db.invitations) (hEmail : i.email = user.email) (hi : i ∈ acc.1.invitations)
    (hPending : i.acceptedAt = none) :
    Rounds user tenantId c.now db (autoJoin c user acc i).1 ∧
      ∀ j ∈ acc.1.invitations, j.id ≠ i.id → j ∈ (autoJoin c user acc i).1.invitations := by
  unfold autoJoin
  split
  · exact ⟨h, fun j hj _ => hj⟩
  · rename_i hOpen
    obtain ⟨hLive, hMember⟩ := not_or.mp hOpen
    have hNone : acc.1.membership user.id i.tenantId = none :=
      Option.not_isSome_iff_eq_none.mp hMember
    have hColumns {β : Type} (f : Invitation → β)
        (hf : ∀ i, f { i with acceptedAt := some c.now } = f i) :
        (acc.1.join c.now (invitedMembership c acc.2.length user i) i).invitations.map f =
          acc.1.invitations.map f := Db.map_update hf _
    have hJoins := join_actsOn (m := invitedMembership c acc.2.length user i) h.keys h.ids hi
      hPending rfl hNone rfl c.now
    refine ⟨⟨hColumns Invitation.key (fun _ => rfl) ▸ h.keys,
      hColumns (fun i => i.id) (fun _ => rfl) ▸ h.ids, ?_⟩, fun j hj hOther => ?_⟩
    · by_cases hTenant : i.tenantId = tenantId
      · subst hTenant
        rcases h.team with hSame | ⟨hSeat, -⟩
        · refine .inr ⟨?_, i, ⟨hOld, hEmail, rfl, hPending, Nat.lt_of_not_le hLive⟩,
            hSame ▸ hJoins.step⟩
          rw [hJoins.step.2]
          simp [Team.after, invitedMembership]
        · -- the user is a member already, and the round would have done nothing
          rw [Db.teamOf_seat, hNone] at hSeat
          cases hSeat
      · rw [hJoins.others tenantId (Ne.symm hTenant)]
        exact h.team
    · refine List.mem_map.mpr ⟨j, hj, ?_⟩
      rw [if_neg hOther]

/-- The loop makes each tenant's team join the user once, or leaves it. -/
theorem autoJoinAll_rounds (user : User) {db : Db} (hValid : db.Valid) (tenantId : Uuid) :
    Rounds user tenantId c.now db (autoJoinAll c user db).1 := by
  have hLoop : ∀ (pending : List Invitation) (acc : Db × List TenantMembership),
      (pending.map fun i => i.id).Nodup → Rounds user tenantId c.now db acc.1 →
      (∀ i ∈ pending, i ∈ db.invitations ∧ i.email = user.email ∧ i.acceptedAt = none ∧
        i ∈ acc.1.invitations) →
      Rounds user tenantId c.now db (pending.foldl (autoJoin c user) acc).1 := by
    intro pending
    induction pending with
    | nil => exact fun _ _ h _ => h
    | cons i pending ih =>
      intro acc hNodup h hAll
      obtain ⟨hFirst, hRest⟩ := List.nodup_cons.mp hNodup
      obtain ⟨hOld, hEmail, hPending, hi⟩ := hAll i List.mem_cons_self
      obtain ⟨hRound, hKept⟩ := h.round hOld hEmail hi hPending
      refine ih _ hRest hRound fun j hj => ?_
      obtain ⟨hOld, hEmail, hPending, hIn⟩ := hAll j (List.mem_cons_of_mem _ hj)
      refine ⟨hOld, hEmail, hPending, hKept j hIn fun hSame => hFirst ?_⟩
      exact List.mem_map.mpr ⟨j, hj, hSame⟩
  refine hLoop _ _ (hValid.invitationId.sublist (List.filter_sublist.map _))
    ⟨hValid.invitationEmailTenant, hValid.invitationId, .inl rfl⟩ fun i hi => ?_
  obtain ⟨hMem, hOpen⟩ := List.mem_filter.mp hi
  obtain ⟨hEmail, hPending⟩ : i.email = user.email ∧ i.acceptedAt = none := by simpa using hOpen
  exact ⟨hMem, hEmail, hPending, hMem⟩

theorem verifyEmail_teams {email code : String} (hValid : w.db.Valid)
    (hRun : (verifyEmail c email code).run w = .ok () w') (tenantId : Uuid) :
    w'.db.teamOf tenantId = w.db.teamOf tenantId ∨ ∃ user, w.db.userByEmail email = some user ∧
      w.cache.otp.get c.now user.id = some code ∧ ∃ i, w.db.Awaits user tenantId c.now i ∧
        Team.Step .admin (w.db.teamOf tenantId) (.joins user.id i.email i.invite)
          (w'.db.teamOf tenantId) := by
  have hTenants : w'.db.tenants = w.db.tenants :=
    (verifyEmail_touches email code .tenants (by simp)).of_ok hRun
  simp only [verifyEmail, Handler.run_query_bind, Handler.run_orRaise_bind_ok, Handler.run_ite_ok,
    Handler.run_pure_ok, true_and] at hRun
  obtain ⟨user, hUser, ⟨-, rfl⟩ | ⟨-, hRun⟩⟩ := hRun
  · exact .inl rfl
  · obtain ⟨valid, m, hOtp, hRun⟩ := Handler.run_bind_ok.mp hRun
    have hEvolves := (verifyOtpCode_evolves (P := nonTenancy) user.id code).of_ok hOtp
    have hSame := Db.team_of_tenancy (hEvolves.tenancy.resolve_left (by simp [nonTenancy]))
    simp only [Handler.run_ensure_bind_ok, markVerified, Handler.run_exec_bind,
      Handler.run_discard_ok, autoJoinPendingInvitations, Handler.run_query_bind,
      run_flush_bind_ok, Handler.run_pure_ok] at hRun
    obtain ⟨hAccepted, -, -, -, rfl⟩ := hRun
    generalize hAfter : (autoJoinAll c _ _).1 = after at hTenants ⊢
    have hLoop : after.team = (autoJoinAll c user w.db).1.team :=
      hAfter ▸ autoJoinAll_team rfl rfl hSame
    have hLoopTenants : (autoJoinAll c user w.db).1.tenants = w.db.tenants :=
      (autoJoinAll_touches user .tenants (by simp)) ⟨w.db, w.cache⟩
    have hTeam : after.teamOf tenantId = (autoJoinAll c user w.db).1.teamOf tenantId := by
      simp only [Db.team, Prod.mk.injEq] at hLoop
      exact Db.teamOf_congr (hTenants.trans hLoopTenants.symm) hLoop.1 hLoop.2.2 hLoop.2.1 tenantId
    rcases (autoJoinAll_rounds (c := c) user hValid tenantId).team with
      hSame | ⟨-, i, hAwaits, hStep⟩
    · exact .inl (hTeam.trans hSame)
    · exact .inr ⟨user, hUser, verifyOtpCode_true (hAccepted ▸ hOtp), i, hAwaits, hTeam ▸ hStep⟩

theorem createWorkspace_actsOn {user : User} {name : PyStr} {m : TenantMembership}
    (hValid : w.db.Valid)
    (hRun : (createWorkspace c user name).run ⟨w.db, cache⟩ = .ok (tenant, m) w') :
    w.db.ActsOn w'.db tenant.id (.founds user.id) := by
  obtain ⟨slug, w₁, hSlug, hRun⟩ := Handler.run_bind_ok.mp hRun
  simp only [generateUniqueSlug, Handler.run_query_bind, Handler.run_orRaise_ok] at hSlug
  obtain ⟨-, rfl⟩ := hSlug
  simp only [Handler.run_exec_bind, run_flush_bind_ok, bootstrapFreeSubscription, bind_assoc,
    Handler.run_query_bind, Handler.run_orRaise_bind_ok, Handler.run_pure_ok,
    Prod.mk.injEq] at hRun
  obtain ⟨_, -, hTenants, -, plan, -, -, ⟨rfl, rfl⟩, rfl⟩ := hRun
  have hFresh := (Db.nodup_map_concat.mp hTenants.tenantId).2
  have hNew : w.db.tenant c.draws.tenantId = none := lookup_none.mpr hFresh
  have hNobody : w.db.membership user.id c.draws.tenantId = none := by
    refine List.find?_eq_none.mpr fun m hm => ?_
    obtain ⟨t, ht, hId⟩ := hValid.membershipTenant m hm
    simpa using fun _ hSame => hFresh t ht (hId.trans hSame)
  refine .of_ite ?_ fun other => ?_
  · simp [Team.Allows, Db.teamOf, hNew]
  · exact Eq.trans (Db.teamOf_found (m := ⟨c.draws.membershipIds 0, user.id, c.draws.tenantId,
      .owner, true, false, none, c.now⟩) hNew rfl rfl rfl hNobody (by rfl) (by rfl) (by rfl)
      (by rfl) other) rfl

theorem changeTenant_ok {tenantId : Uuid} {refuse : Tenant → Bool} {error : PyError}
    {change : Tenant → Tenant}
    (hRun : (changeTenant tenantId refuse error change).run w = .ok () w') :
    ∃ t, w.db.tenant tenantId = some t ∧ t.id = tenantId ∧ refuse t = false ∧
      w' = { w with db := w.db.updateTenant tenantId change } := by
  simp only [changeTenant, Handler.run_query_bind, Handler.run_orRaise_bind_ok,
    Handler.run_ensure_bind_ok, Handler.run_exec, Outcome.ok.injEq, true_and] at hRun
  obtain ⟨t, hFound, hRefuse, rfl⟩ := hRun
  exact ⟨t, hFound, by simpa using List.find?_some hFound, hRefuse, rfl⟩

/-- An update of a tenant that sets one flag is an act of the platform on its team. -/
theorem updateTenant_actsOn {db : Db} {t : Tenant} {tenantId : Uuid}
    (ht : db.tenant tenantId = some t) (hId : t.id = tenantId)
    {change : Tenant → Tenant} (hChange : ∀ x, (change x).id = x.id)
    {act : TeamAct Uuid String MemberRole} (hAllows : (db.teamOf tenantId).Allows .admin act)
    (hAfter : (db.teamOf tenantId).after .admin act = { db.teamOf tenantId with
      suspended := (change t).isSuspended, deleted := (change t).isDeleted }) :
    db.ActsOn (db.updateTenant tenantId change) tenantId act := by
  subst hId
  refine .of_ite hAllows fun other => ?_
  rw [Db.teamOf_updateTenant ht hChange]
  split
  · rename_i hOther
    subst hOther
    exact hAfter.symm
  · rfl

/-- What the flags of a team say of the row of its tenant. -/
theorem flags_of_tenant {db : Db} {tenantId : Uuid} {t : Tenant}
    (ht : db.tenant tenantId = some t) :
    (db.teamOf tenantId).founded = true ∧ (db.teamOf tenantId).suspended = t.isSuspended ∧
      (db.teamOf tenantId).deleted = t.isDeleted := by
  simp [Db.teamOf, ht]

theorem suspendTenant_actsOn {tenantId : Uuid}
    (hRun : (suspendTenant c tenantId).run w = .ok () w') :
    w.db.ActsOn w'.db tenantId .suspends := by
  obtain ⟨⟨⟩, m, hChange, hRun⟩ := Handler.run_bind_ok.mp hRun
  obtain ⟨t, ht, hId, hRefuse, rfl⟩ := changeTenant_ok hChange
  obtain ⟨hFounded, hSuspended, hDeleted⟩ := flags_of_tenant ht
  have hAllows : (w.db.teamOf tenantId).Allows MemberRole.admin .suspends :=
    ⟨hFounded, hSuspended.trans hRefuse⟩
  have hActs : w.db.ActsOn (w.db.updateTenant tenantId fun t => { t with isSuspended := true })
      tenantId .suspends := by
    refine updateTenant_actsOn ht hId (by intro; rfl) hAllows ?_
    rw [Team.after, ← hDeleted]
  have hSame (tenantId : Uuid) : w'.db.teamOf tenantId = _ :=
    have hTouches := (revokeSessionsOf_touches (c := c) _)
    Db.teamOf_congr ((hTouches .tenants (by simp)).of_ok hRun)
      ((hTouches .memberships (by simp)).of_ok hRun) ((hTouches .invitations (by simp)).of_ok hRun)
      ((hTouches .transfers (by simp)).of_ok hRun) tenantId
  exact ⟨hSame _ ▸ hActs.step, fun other hOther => (hSame other).trans (hActs.others other hOther)⟩

theorem reactivateTenant_actsOn {tenantId : Uuid}
    (hRun : (reactivateTenant tenantId).run w = .ok () w') :
    w.db.ActsOn w'.db tenantId .reactivates := by
  obtain ⟨t, ht, hId, hRefuse, rfl⟩ := changeTenant_ok hRun
  obtain ⟨-, hSuspended, hDeleted⟩ := flags_of_tenant ht
  have hOff : t.isSuspended = true := by simpa using hRefuse
  have hAllows : (w.db.teamOf tenantId).Allows MemberRole.admin .reactivates :=
    hSuspended.trans hOff
  refine updateTenant_actsOn ht hId (by intro; rfl) hAllows ?_
  rw [Team.after, ← hDeleted]

theorem softDeleteTenant_actsOn {tenantId : Uuid}
    (hRun : (softDeleteTenant tenantId).run w = .ok () w') :
    w.db.ActsOn w'.db tenantId .deletes := by
  obtain ⟨t, ht, hId, hRefuse, rfl⟩ := changeTenant_ok hRun
  obtain ⟨hFounded, hSuspended, hDeleted⟩ := flags_of_tenant ht
  have hAllows : (w.db.teamOf tenantId).Allows MemberRole.admin .deletes :=
    ⟨hFounded, hDeleted.trans hRefuse⟩
  refine updateTenant_actsOn ht hId (by intro; rfl) hAllows ?_
  rw [Team.after, ← hSuspended]

/-- MFA enforcement changes no team. -/
theorem setMfaEnforcement_teams {enforce : Bool} {user : User} (hValid : w.db.Valid)
    (ht : tenant ∈ w.db.tenants)
    (hRun : (Router.setMfaEnforcement tenant user enforce).run ⟨w.db, cache⟩ = .ok () w')
    (tenantId : Uuid) : w'.db.teamOf tenantId = w.db.teamOf tenantId := by
  have hRow := hValid.tenant_of_mem ht
  obtain ⟨-, hSuspended, hDeleted⟩ := flags_of_tenant hRow
  have hSame (enforce : Bool) : (w.db.updateTenant tenant.id fun t =>
      { t with mfaEnforced := enforce }).teamOf tenantId = w.db.teamOf tenantId := by
    rw [Db.teamOf_updateTenant hRow (by intro; rfl)]
    split
    · rename_i h
      subst h
      rw [← hSuspended, ← hDeleted]
    · rfl
  cases enforce with
  | true =>
    simp only [Router.setMfaEnforcement, if_true, enableMfaEnforcement, Handler.run_ensure_bind_ok,
      Handler.run_exec_bind, Handler.run_query_bind, Handler.run_exec, Outcome.ok.injEq,
      true_and] at hRun
    obtain ⟨-, rfl⟩ := hRun
    exact hSame true
  | false =>
    simp only [Router.setMfaEnforcement, Bool.false_eq_true, if_false, disableMfaEnforcement,
      Handler.run_exec, Outcome.ok.injEq, true_and] at hRun
    subst hRun
    exact hSame false

end Operations

/-! ### Requests -/

/-- Who may make an act on the team of a tenant by a request: a member who has passed the guard of
that tenant with a token of their own, the founder, who takes up an invitation to that tenant with
its token or verifies the address that it was sent to, or a super-admin for the platform. -/
inductive Performs (c : Ctx) (w : World) (r : Request) (tenantId : Uuid) :
    Uuid → TeamAct Uuid String MemberRole → Prop
  | member {act p header minimum tenant actor} (bearer : .signed p ∈ r.bearers)
      (own : p.sub = actor.userId) (acts : Acts c w (.signed p) header minimum tenant actor)
      (inTenant : tenant.id = tenantId) (by_ : act.actor = some actor.userId) :
      Performs c w r tenantId actor.userId act
  | founder {token name user} (request : r = .createWorkspace token name)
      (guard : ∃ m, (requireVerified c token).run w = .ok user m) :
      Performs c w r tenantId user.id (.founds user.id)
  | newcomer {token invitation user i} (request : r = .acceptInvitation token invitation)
      (guard : ∃ m, (requireVerified c token).run w = .ok user m)
      (redeems : w.db.Redeems c user invitation i) (inTenant : i.tenantId = tenantId) :
      Performs c w r tenantId user.id (.joins user.id i.email i.invite)
  | verified {email code user i} (request : r = .verifyEmail email code)
      (found : w.db.userByEmail email = some user)
      (accepted : w.cache.otp.get c.now user.id = some code)
      (awaits : w.db.Awaits user tenantId c.now i) :
      Performs c w r tenantId user.id (.joins user.id i.email i.invite)
  | platform {act token admin} (bearer : token ∈ r.bearers)
      (guard : ∃ m, (requireAdmin c token).run w = .ok admin m) (by_ : act.ofPlatform = true) :
      Performs c w r tenantId admin.id act

structure AuditLog.Says (row : AuditLog) (action : String) (actor tenant : Option Uuid)
    (resource : Option String) : Prop where
  action : row.action = action
  actor : row.actorId = actor
  tenant : row.tenantId = tenant
  resource : row.resourceId = resource

/-- What a row says that tells of an act and names who made it. -/
def Attests (c : Ctx) (tenantId performer : Uuid) (row : AuditLog) :
    TeamAct Uuid String MemberRole → Prop
  | .founds _ =>
    row.Says "create_workspace" (some performer) none (some (c.lib.uuidText tenantId))
  | .assigns _ target role _ =>
    row.Says "change_role" (some performer) (some tenantId) (some (c.lib.uuidText target)) ∧
      row.details = [("new_role", .str role.value)]
  | .removes _ target =>
    row.Says "remove_member" (some performer) (some tenantId) (some (c.lib.uuidText target))
  | .leaves _ => row.Says "leave_tenant" (some performer) (some tenantId) none
  | .offers _ heir =>
    (∃ id, row.Says "initiate_transfer" (some performer) (some tenantId) (some id)) ∧
      row.details = [("to_user_id", .str (c.lib.uuidText heir))]
  | .accepts .. => row.Says "accept_transfer" (some performer) (some tenantId) none
  | .invites _ email role _ =>
    (∃ id, row.Says "invite_user" (some performer) (some tenantId) (some id)) ∧
      row.details = [("email", .str email), ("role", .str role.value)]
  | .cancels .. => ∃ id, row.Says "cancel_invitation" (some performer) (some tenantId) (some id)
  | .joins .. => row.Says "accept_invitation" (some performer) (some tenantId) none
  | .bars target blocked => row.Says (if blocked then "block_user" else "unblock_user")
    (some performer) (some tenantId) (some (c.lib.uuidText target))
  | .suspends => row.Says "suspend_tenant" (some performer) none (some (c.lib.uuidText tenantId))
  | .reactivates =>
    row.Says "reactivate_tenant" (some performer) none (some (c.lib.uuidText tenantId))
  | .deletes =>
    row.Says "soft_delete_tenant" (some performer) none (some (c.lib.uuidText tenantId))

/-- The row of a request that has made an act.  It tells of the act, unless a user has joined by
verifying the address: then it says that an address was verified, and names neither the user nor the
tenant. -/
inductive Recorded (c : Ctx) (r : Request) (tenantId performer : Uuid) (row : AuditLog) :
    TeamAct Uuid String MemberRole → Prop
  | attested {act} (attests : Attests c tenantId performer row act) :
      Recorded c r tenantId performer row act
  | verified {email code address i} (request : r = .verifyEmail email code)
      (told : row.Says "verify_email" none none none) :
      Recorded c r tenantId performer row (.joins performer address i)

section Requests

variable {c : Ctx} {o : Occasion} {w w' : World} {tenant : Tenant} {token : Bearer}
  {header : Option String} {minimum : MemberRole} {actor : TenantMembership} {r : Request}
  {x : AuditedResponse} {row : AuditLog} {act : TeamAct Uuid String MemberRole}

/-- What a tenant sees of a request and of the rows that it adds to the audit log: an act on its
team, by somebody who may make it and with a row that records it, or nothing. -/
def SeenWith (c : Ctx) (r : Request) (rows : List AuditLog) (w w' : World) (tenantId : Uuid) :
    Prop :=
  w'.db.teamOf tenantId = w.db.teamOf tenantId ∨ ∃ act performer,
    Team.Step .admin (w.db.teamOf tenantId) act (w'.db.teamOf tenantId) ∧
      Performs c w r tenantId performer act ∧
      ∃ row, rows = [row] ∧ Recorded c r tenantId performer row act

theorem SeenWith.of_actsOn {inTenant performer : Uuid} (h : w.db.ActsOn w'.db inTenant act)
    (hPerforms : Performs c w r inTenant performer act)
    (hAttests : Attests c inTenant performer row act) (tenantId : Uuid) :
    SeenWith c r [row] w w' tenantId := by
  rcases h.seen tenantId with hSame | ⟨rfl, hStep⟩
  · exact .inl hSame
  · exact .inr ⟨act, performer, hStep, hPerforms, row, rfl, .attested hAttests⟩

/-- An act of a member who has passed the guard. -/
theorem Acts.performs (h : Acts c w token header minimum tenant actor) (hBearer : token ∈ r.bearers)
    (hActor : act.actor = some actor.userId) : Performs c w r tenant.id actor.userId act := by
  obtain ⟨p, rfl, hOwn⟩ := h.ownToken
  exact .member hBearer hOwn h rfl hActor

/-- An act of the platform, behind the guard for super-admins. -/
theorem asAdmin_actsOn {k : App Unit} {entry : User → AuditFields} {inTenant : Uuid}
    (hBearer : token ∈ r.bearers) (hPlatform : act.ofPlatform = true)
    (hActs : ∀ w', k.run w = .ok () w' → w.db.ActsOn w'.db inTenant act)
    (hAttests : ∀ admin, Attests c inTenant admin.id (writeAudit c (entry admin)) act)
    (hRun : (AuditedRouter.asAdmin c token k entry).run w = .ok x w') (tenantId : Uuid) :
    SeenWith c r x.2 w w' tenantId := by
  obtain ⟨admin, hAdmin, hDone, rfl⟩ := asAdmin_names hRun
  exact .of_actsOn (hActs _ hDone) (.platform hBearer hAdmin hPlatform) (hAttests admin) tenantId

/-- The requests behind the guard of a tenant that may change it or its team. -/
def Request.byMember : Request → Bool
  | .changeMemberRole .. | .removeMember .. | .leaveTenant .. | .initiateTransfer ..
  | .acceptTransfer .. | .getPendingTransfer .. | .createInvitation .. | .cancelInvitation ..
  | .toggleMfaEnforcement .. => true
  | _ => false

/-- A request of a member makes an act of that member, or none. -/
theorem byMember_seen (hValid : w.db.Valid) (hMember : r.byMember = true)
    (hRun : (audited c o r).run w = .ok x w') (tenantId : Uuid) :
    SeenWith c r x.2 w w' tenantId := by
  cases r with
  | changeMemberRole token header userId body =>
    obtain ⟨tenant, actor, ⟨db, cache⟩, hActs, rfl, hRun⟩ := run_acts hRun
    obtain ⟨updated, m', hChange, hRun⟩ := Handler.run_bind_ok.mp hRun
    simp only [Handler.run_query_bind, Handler.run_ensure_bind_ok, Handler.run_pure_ok] at hRun
    obtain ⟨-, rfl, rfl⟩ := hRun
    obtain ⟨billing, hActed⟩ := changeRole_actsOn hValid hActs hChange
    exact .of_actsOn hActed (hActs.performs List.mem_cons_self rfl) ⟨⟨rfl, rfl, rfl, rfl⟩, rfl⟩
      tenantId
  | removeMember token header userId =>
    obtain ⟨tenant, actor, ⟨db, cache⟩, hActs, rfl, hRun⟩ := run_acts hRun
    obtain ⟨⟨⟩, m', hRemove, hRun⟩ := Handler.run_bind_ok.mp hRun
    obtain ⟨rfl, rfl⟩ := Handler.run_pure_ok.mp hRun
    exact .of_actsOn (removeMember_actsOn hValid hActs hRemove)
      (hActs.performs List.mem_cons_self rfl) ⟨rfl, rfl, rfl, rfl⟩ tenantId
  | leaveTenant token header =>
    obtain ⟨⟨tenant, member⟩, ⟨db, cache⟩, hGuard, hRun⟩ := Handler.run_bind_ok.mp hRun
    obtain ⟨⟨⟩, m', hLeave, hRun⟩ := Handler.run_bind_ok.mp hRun
    obtain ⟨rfl, rfl⟩ := Handler.run_pure_ok.mp hRun
    obtain ⟨rfl, hActs⟩ := getTenantContext_acts hGuard
    exact .of_actsOn (leaveTenant_actsOn hValid hActs hLeave)
      (hActs.performs List.mem_cons_self rfl) ⟨rfl, rfl, rfl, rfl⟩ tenantId
  | initiateTransfer token header toUserId =>
    obtain ⟨tenant, actor, ⟨db, cache⟩, hActs, rfl, hRun⟩ := run_acts hRun
    obtain ⟨transfer, m', hInitiate, hRun⟩ := Handler.run_bind_ok.mp hRun
    obtain ⟨rfl, rfl⟩ := Handler.run_pure_ok.mp hRun
    exact .of_actsOn (initiateTransfer_actsOn hValid hActs hInitiate)
      (hActs.performs List.mem_cons_self rfl) ⟨⟨_, rfl, rfl, rfl, rfl⟩, rfl⟩ tenantId
  | acceptTransfer token header =>
    obtain ⟨⟨tenant, member⟩, ⟨db, cache⟩, hGuard, hRun⟩ := Handler.run_bind_ok.mp hRun
    obtain ⟨⟨⟩, m', hAccept, hRun⟩ := Handler.run_bind_ok.mp hRun
    obtain ⟨rfl, rfl⟩ := Handler.run_pure_ok.mp hRun
    obtain ⟨rfl, hActs⟩ := getTenantContext_acts hGuard
    obtain ⟨owner, hActed⟩ := acceptTransfer_actsOn hValid hActs hAccept
    exact .of_actsOn hActed (hActs.performs List.mem_cons_self rfl) ⟨rfl, rfl, rfl, rfl⟩ tenantId
  | getPendingTransfer token header =>
    obtain ⟨response, m, hRoute, hPure⟩ := Handler.run_bind_ok.mp hRun
    obtain ⟨-, rfl⟩ := Handler.run_pure_ok.mp hPure
    obtain ⟨⟨tenant, actor⟩, ⟨db, cache⟩, hGuard, hRoute⟩ := Handler.run_bind_ok.mp hRoute
    obtain ⟨found, m', hGet, hRoute⟩ := Handler.run_bind_ok.mp hRoute
    simp only [Handler.run_orRaise_bind_ok, Handler.run_pure_ok] at hRoute
    obtain ⟨transfer, rfl, -, rfl⟩ := hRoute
    obtain ⟨rfl, hActs⟩ := requireRole_acts hGuard
    have hTeam := getPendingTransfer_some hGet
    have hTenants := (getPendingTransfer_touches tenant.id .tenants (by simp)).of_ok hGet
    simp only [Db.team, Prod.mk.injEq] at hTeam
    exact .inl (Db.teamOf_congr hTenants hTeam.1 hTeam.2.2 hTeam.2.1 tenantId)
  | createInvitation token header body =>
    obtain ⟨tenant, actor, ⟨db, cache⟩, hActs, rfl, hRun⟩ := run_acts hRun
    obtain ⟨⟨⟩, m', hCap, hRun⟩ := Handler.run_bind_ok.mp hRun
    obtain ⟨invitation, m'', hInvite, hRun⟩ := Handler.run_bind_ok.mp hRun
    obtain ⟨rfl, rfl⟩ := Handler.run_pure_ok.mp hRun
    have hSame := enforceMemberCap_same hCap
    subst hSame
    exact .of_actsOn (inviteUser_actsOn hValid hActs hInvite)
      (hActs.performs List.mem_cons_self rfl) ⟨⟨_, rfl, rfl, rfl, rfl⟩, rfl⟩ tenantId
  | cancelInvitation token header invitationId =>
    obtain ⟨tenant, actor, ⟨db, cache⟩, hActs, rfl, hRun⟩ := run_acts hRun
    obtain ⟨⟨⟩, m', hCancel, hRun⟩ := Handler.run_bind_ok.mp hRun
    obtain ⟨rfl, rfl⟩ := Handler.run_pure_ok.mp hRun
    obtain ⟨email, hActed⟩ := cancelInvitation_actsOn hValid hActs hCancel
    exact .of_actsOn hActed (hActs.performs List.mem_cons_self rfl) ⟨_, rfl, rfl, rfl, rfl⟩
      tenantId
  | toggleMfaEnforcement token header enforce =>
    obtain ⟨tenant, actor, ⟨db, cache⟩, hActs, rfl, hRun⟩ := run_acts hRun
    simp only [Handler.run_query_bind, Handler.run_orRaise_bind_ok] at hRun
    obtain ⟨user, -, hRun⟩ := hRun
    obtain ⟨⟨⟩, m', hSet, hRun⟩ := Handler.run_bind_ok.mp hRun
    obtain ⟨-, rfl⟩ := Handler.run_pure_ok.mp hRun
    exact .inl (setMfaEnforcement_teams hValid hActs.known hSet tenantId)
  | _ => cases hMember

/-- A committed request makes an act on the team of one tenant at most, is let to, and leaves a
record of it. -/
theorem audited_seen (hValid : w.db.Valid) (hRun : (audited c o r).run w = .ok x w')
    (tenantId : Uuid) : SeenWith c r x.2 w w' tenantId := by
  by_cases hParts : Part.tenants ∈ r.parts ∨ Part.memberships ∈ r.parts ∨
      Part.invitations ∈ r.parts ∨ Part.transfers ∈ r.parts
  · cases r with
    | verifyEmail email code =>
      obtain ⟨⟨⟩, m, hVerify, hRun⟩ := Handler.run_bind_ok.mp hRun
      obtain ⟨rfl, rfl⟩ := Handler.run_pure_ok.mp hRun
      rcases verifyEmail_teams hValid hVerify tenantId with
        hSame | ⟨user, hUser, hCode, i, hAwaits, hStep⟩
      · exact .inl hSame
      · exact .inr ⟨_, user.id, hStep, .verified rfl hUser hCode hAwaits, _, rfl,
          .verified rfl ⟨rfl, rfl, rfl, rfl⟩⟩
    | createWorkspace token name =>
      obtain ⟨user, ⟨db, cache⟩, hUser, hRun⟩ := Handler.run_bind_ok.mp hRun
      obtain ⟨⟨tenant, membership⟩, m', hCreate, hRun⟩ := Handler.run_bind_ok.mp hRun
      obtain ⟨rfl, rfl⟩ := Handler.run_pure_ok.mp hRun
      obtain rfl : db = w.db := (requireVerified_ok hUser).1
      exact .of_actsOn (createWorkspace_actsOn hValid hCreate) (.founder rfl ⟨_, hUser⟩)
        ⟨rfl, rfl, rfl, rfl⟩ tenantId
    | changeMemberRole | removeMember | leaveTenant | initiateTransfer | acceptTransfer
    | getPendingTransfer | createInvitation | cancelInvitation | toggleMfaEnforcement =>
      exact byMember_seen hValid rfl hRun tenantId
    | acceptInvitation token invitation =>
      obtain ⟨user, ⟨db, cache⟩, hUser, hRun⟩ := Handler.run_bind_ok.mp hRun
      obtain ⟨membership, m', hAccept, hRun⟩ := Handler.run_bind_ok.mp hRun
      obtain ⟨rfl, rfl⟩ := Handler.run_pure_ok.mp hRun
      obtain ⟨hDb, hRow, -⟩ := requireVerified_ok hUser
      obtain rfl : db = w.db := hDb
      obtain ⟨i, hRedeems, hTenant, hActed⟩ := acceptInvitation_actsOn hValid hRow hAccept
      exact .of_actsOn hActed (.newcomer rfl ⟨_, hUser⟩ hRedeems rfl)
        ⟨rfl, rfl, congrArg some hTenant, rfl⟩ tenantId
    | suspendTenant token inTenant =>
      exact asAdmin_actsOn List.mem_cons_self rfl (fun _ h => suspendTenant_actsOn h)
        (fun _ => ⟨rfl, rfl, rfl, rfl⟩) hRun tenantId
    | reactivateTenant token inTenant =>
      exact asAdmin_actsOn List.mem_cons_self rfl (fun _ h => reactivateTenant_actsOn h)
        (fun _ => ⟨rfl, rfl, rfl, rfl⟩) hRun tenantId
    | softDeleteTenant token inTenant =>
      exact asAdmin_actsOn List.mem_cons_self rfl (fun _ h => softDeleteTenant_actsOn h)
        (fun _ => ⟨rfl, rfl, rfl, rfl⟩) hRun tenantId
    | blockUser token userId inTenant | unblockUser token userId inTenant =>
      exact asAdmin_actsOn List.mem_cons_self rfl (fun _ h => setBlocked_actsOn hValid h)
        (fun _ => ⟨rfl, rfl, rfl, rfl⟩) hRun tenantId
    | _ => simp [Request.parts] at hParts
  · obtain ⟨hTenants, hMembers, hInvitations, hTransfers⟩ : Part.tenants ∉ r.parts ∧
        Part.memberships ∉ r.parts ∧ Part.invitations ∉ r.parts ∧ Part.transfers ∉ r.parts := by
      simpa [not_or] using hParts
    have hRun := audited_ok hRun
    exact .inl (Db.teamOf_congr ((handle_touches r .tenants hTenants).of_ok hRun)
      ((handle_touches r .memberships hMembers).of_ok hRun)
      ((handle_touches r .invitations hInvitations).of_ok hRun)
      ((handle_touches r .transfers hTransfers).of_ok hRun) tenantId)

/-- What a tenant sees of a request: an act on its team, by somebody who may make it, or nothing. -/
def Seen (c : Ctx) (r : Request) (w w' : World) (tenantId : Uuid) : Prop :=
  w'.db.teamOf tenantId = w.db.teamOf tenantId ∨ ∃ act,
    Team.Step .admin (w.db.teamOf tenantId) act (w'.db.teamOf tenantId) ∧
      ∃ performer, Performs c w r tenantId performer act

theorem handle_seen {response : Response} (hValid : w.db.Valid)
    (hRun : (handle c r).run w = .ok response w') (tenantId : Uuid) : Seen c r w w' tenantId := by
  obtain ⟨rows, hAudited⟩ := audited_of_ok (o := ⟨none, ""⟩) hRun
  rcases audited_seen hValid hAudited tenantId with hSame | ⟨act, performer, hStep, hPerforms, -⟩
  · exact .inl hSame
  · exact .inr ⟨act, hStep, performer, hPerforms⟩

end Requests

end WxcodeAdm
