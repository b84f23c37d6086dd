import WxcodeAdm.Moves

/-! The target of a pending transfer.  `initiate_transfer` asks for a member, and nothing that comes
later looks at the transfers: whoever removes the target, or the target who leaves, leaves a
transfer behind that nobody can accept and nobody can cancel. -/

namespace WxcodeAdm

open Lib

/-- The target of the transfer is a member who is not the owner. -/
def Db.Eligible (db : Db) (x : OwnershipTransfer) : Prop :=
  ∃ m ∈ db.memberships, m.userId = x.toUserId ∧ m.tenantId = x.tenantId ∧ m.role ≠ .owner

/-- Every transfer that has not expired is to a member who is not the owner. -/
def Sys.TargetsMembers (s : Sys) : Prop :=
  ∀ x ∈ s.world.db.transfers, s.now ≤ x.expiresAt → s.world.db.Eligible x

/-- The request passes its checks for taking the user, who is no owner, out of the tenant. -/
inductive Dismisses (c : Ctx) (w : World) : Request → Uuid → Uuid → Prop
  | removes {token header userId tenant actor} (acts : Acts c w token header .admin tenant actor)
      (other : userId ≠ actor.userId) :
      Dismisses c w (.removeMember token header userId) userId tenant.id
  | leaves {token header tenant member} (acts : Acts c w token header member.role tenant member)
      (role : member.role ≠ .owner) :
      Dismisses c w (.leaveTenant token header) member.userId tenant.id

/-- The request takes no target of a transfer that has not expired out of its tenant. -/
def SparesTargets (cfg : Config) (step : Sys × Event) : Prop :=
  ∀ x ∈ step.1.world.db.transfers, step.2.now ≤ x.expiresAt →
    ¬Dismisses (step.2.ctx cfg) step.1.world step.2.request x.toUserId x.tenantId

section Moves

variable {c : Ctx} {w w' : World} {r : Request} {x : OwnershipTransfer}

theorem Db.Eligible.mono {db db' : Db} (h : db.Eligible x)
    (hKept : ∀ m ∈ db.memberships, m.userId = x.toUserId → m.tenantId = x.tenantId →
      m.role ≠ .owner → ∃ m' ∈ db'.memberships, m'.userId = m.userId ∧ m'.tenantId = m.tenantId ∧
        m'.role ≠ .owner) : db'.Eligible x := by
  obtain ⟨m, hm, hUser, hTenant, hRole⟩ := h
  obtain ⟨m', hm', hUser', hTenant', hRole'⟩ := hKept m hm hUser hTenant hRole
  exact ⟨m', hm', hUser'.trans hUser, hTenant'.trans hTenant, hRole'⟩

theorem Db.Eligible.of_subset {db db' : Db} (h : db.Eligible x)
    (hKept : db.memberships ⊆ db'.memberships) : db'.Eligible x :=
  h.mono fun m hm _ _ hRole => ⟨m, hKept hm, rfl, rfl, hRole⟩

theorem saveMembership_transfers {db : Db} {loaded changed : TenantMembership} :
    (db.saveMembership loaded changed).transfers = db.transfers := by
  unfold Db.saveMembership
  split <;> rfl

theorem setRole_transfers {db : Db} {row : Option TenantMembership} {role : MemberRole} :
    (db.setRole row role).transfers = db.transfers := by
  cases row <;> rfl

theorem updateMembership_rows {db : Db} {id : Uuid} {f : TenantMembership → TenantMembership}
    {m : TenantMembership} (hm : m ∈ db.memberships) :
    (if m.id = id then f m else m) ∈ (db.updateMembership id f).memberships :=
  List.mem_map_of_mem hm

/-- The memberships that a loop of `auto_join_pending_invitations` started from stay. -/
theorem autoJoinAll_subset (user : User) (db : Db) :
    db.memberships ⊆ (autoJoinAll c user db).1.memberships := by
  unfold autoJoinAll
  refine List.foldlRecOn _ (autoJoin c user) (motive := fun acc : Db × List TenantMembership =>
    db.memberships ⊆ acc.1.memberships) (List.Subset.refl _) fun acc hAcc i _ => ?_
  unfold autoJoin
  split
  · exact hAcc
  · exact List.Subset.trans hAcc (List.subset_append_left _ _)

theorem autoJoinAll_transfers (user : User) (db : Db) :
    (autoJoinAll c user db).1.transfers = db.transfers := by
  unfold autoJoinAll
  refine List.foldlRecOn _ (autoJoin c user) (motive := fun acc : Db × List TenantMembership =>
    acc.1.transfers = db.transfers) rfl fun acc hAcc i _ => ?_
  unfold autoJoin
  split <;> exact hAcc

theorem MemberRole.eq_owner_of_level {role : MemberRole}
    (h : MemberRole.owner.level ≤ role.level) : role = .owner := by
  cases role <;> first | rfl | (exact absurd h (by decide))

/-- An update of one row keeps the target of a transfer when it keeps the row of the target. -/
theorem Db.Eligible.updateMembership {db : Db} {id : Uuid}
    {f : TenantMembership → TenantMembership} (h : db.Eligible x)
    (hf : ∀ m ∈ db.memberships, m.id = id → m.userId = x.toUserId → m.tenantId = x.tenantId →
      m.role ≠ .owner → (f m).userId = m.userId ∧ (f m).tenantId = m.tenantId ∧
        (f m).role ≠ .owner) : (db.updateMembership id f).Eligible x := by
  refine h.mono fun m hm hUser hTenant hRole => ⟨_, updateMembership_rows hm, ?_⟩
  split
  · rename_i hId
    exact hf m hm hId hUser hTenant hRole
  · exact ⟨rfl, rfl, hRole⟩

/-- A row that is saved without becoming an owner row. -/
theorem Db.Eligible.saveMembership {db : Db} {loaded changed : TenantMembership}
    (h : db.Eligible x) (hRole : changed.role ≠ .owner) :
    (db.saveMembership loaded changed).Eligible x := by
  unfold Db.saveMembership
  split
  · exact h
  · refine h.updateMembership fun m _ _ _ _ hOld => ⟨rfl, rfl, ?_⟩
    dsimp only
    split
    · exact hOld
    · exact hRole

/-- The row of the target stays when another row is deleted. -/
theorem Db.Eligible.deleteMembership {db : Db} (hValid : db.Valid) {m : TenantMembership}
    (hm : m ∈ db.memberships) (h : db.Eligible x)
    (hOther : ¬(m.userId = x.toUserId ∧ m.tenantId = x.tenantId)) :
    (db.deleteMembership m.id).Eligible x := by
  refine h.mono fun row hRow hUser hTenant hRole => ⟨row, List.mem_filter.mpr ⟨hRow, ?_⟩, rfl, rfl,
    hRole⟩
  have hNe : row.id ≠ m.id := by
    intro hId
    obtain rfl := hValid.membership_id hRow hm hId
    exact hOther ⟨hUser, hTenant⟩
  simpa using hNe

/-- The swap of two roles of another tenant keeps the target of a transfer. -/
theorem Db.Eligible.swap {db : Db} (hValid : db.Valid) {m : TenantMembership}
    (hm : m ∈ db.memberships) (hTenant : m.tenantId ≠ x.tenantId) (userId : Uuid)
    (h : db.Eligible x) :
    ((db.setRole (db.membership userId m.tenantId) .admin).setRole (some m) .owner).Eligible x := by
  refine h.mono fun row hRow hUser hIn hRole => ⟨row, ?_, rfl, rfl, hRole⟩
  have hNot {y : TenantMembership} (hy : y ∈ db.memberships) (hSame : y.tenantId = m.tenantId) :
      row.id ≠ y.id := by
    intro hId
    obtain rfl := hValid.membership_id hRow hy hId
    exact hTenant (hSame.symm.trans hIn)
  have hFirst : row ∈ (db.setRole (db.membership userId m.tenantId) .admin).memberships := by
    cases hFound : db.membership userId m.tenantId with
    | none => exact hRow
    | some y =>
      obtain ⟨hy, -, hSame⟩ := Db.membership_mem hFound
      exact List.mem_map.mpr ⟨row, hRow, if_neg (hNot hy hSame)⟩
  exact List.mem_map.mpr ⟨row, hFirst, if_neg (hNot hm rfl)⟩

/-- A move keeps the target of a transfer, unless it takes it out of the tenant; and a new transfer
is to a member. -/
theorem Move.eligible (hValid : w.db.Valid) (hGoverned : w.db.AllGoverned) (hMove : Move c w w' r)
    (hx : x ∈ w'.db.transfers)
    (hOld : x ∈ w.db.transfers → w.db.Eligible x ∧ ¬Dismisses c w r x.toUserId x.tenantId) :
    w'.db.Eligible x := by
  have hOf {db : Db} (hTeam : w'.db.team = db.team) (h : x ∈ db.transfers → db.Eligible x) :
      w'.db.Eligible x := by
    have hRows : w'.db.memberships = db.memberships := congrArg (fun t => t.1) hTeam
    have hTransfers : w'.db.transfers = db.transfers := congrArg (fun t => t.2.1) hTeam
    exact (h (hTransfers ▸ hx)).of_subset (hRows ▸ List.Subset.refl _)
  cases hMove with
  | idle after => exact hOf after fun hx => (hOld hx).1
  | founds _ _ _ _ _ _ after =>
    exact hOf after fun hx =>
      (hOld hx).1.of_subset (List.subset_append_left _ _)
  | @changesRole _ _ _ body _ _ target acts found _ _ after =>
    refine hOf after fun hx => (hOld (saveMembership_transfers ▸ hx)).1.saveMembership ?_
    exact body.role.notOwner
  | removes acts other found role after =>
    refine hOf after fun hx => ?_
    obtain ⟨hMem, hUser, hTenant⟩ := Db.membership_mem found
    refine (hOld hx).1.deleteMembership hValid hMem fun hSame => (hOld hx).2 ?_
    rw [← hSame.1, ← hSame.2, hUser, hTenant]
    exact .removes acts other
  | leaves acts role after =>
    refine hOf after fun hx => ?_
    refine (hOld hx).1.deleteMembership hValid acts.mem.1 fun hSame => (hOld hx).2 ?_
    rw [← hSame.1, ← hSame.2, acts.mem.2]
    exact .leaves acts role
  | @offers _ _ toUserId tenant actor target kept acts other found sub sole after =>
    refine hOf after fun hx => ?_
    rcases List.mem_append.mp hx with hx | hx
    · exact (hOld (sub hx)).1
    · obtain rfl := List.mem_singleton.mp hx
      obtain ⟨hMem, hUser, hTenant⟩ := Db.membership_mem found
      refine ⟨target, hMem, hUser, hTenant, fun hRole => other ?_⟩
      -- the caller is the one owner
      obtain ⟨owner, hSole, -⟩ := hGoverned tenant acts.known
      have hActor : actor = owner := hSole.eq acts.mem.1
        (isOwnerOf_iff.mpr ⟨acts.mem.2, MemberRole.eq_owner_of_level acts.level⟩)
      have hTarget : target = owner := hSole.eq hMem (isOwnerOf_iff.mpr ⟨hTenant, hRole⟩)
      rw [← hUser, hTarget, hActor]
  | @accepts _ _ tenant member transfer acts mem inTenant target live after =>
    refine hOf after fun hx => ?_
    obtain ⟨hIn, hNot⟩ := List.mem_filter.mp hx
    simp only [setRole_transfers] at hIn
    have hTenant : tenant.id ≠ x.tenantId := by
      intro hSame
      obtain rfl := hValid.transfer_tenantId hIn mem (hSame.symm.trans inTenant.symm)
      simp at hNot
    obtain ⟨hMember, hIs⟩ := acts.mem
    rw [← hIs] at hTenant ⊢
    exact (hOld hIn).1.swap hValid hMember hTenant transfer.fromUserId
  | invites _ after =>
    exact hOf after fun hx => (hOld hx).1.of_subset (List.Subset.refl _)
  | cancels _ _ after =>
    exact hOf after fun hx => (hOld hx).1.of_subset (List.Subset.refl _)
  | redeems _ _ after =>
    exact hOf after fun hx => (hOld hx).1.of_subset (List.subset_append_left _ _)
  | autoJoins _ _ _ after =>
    exact hOf after fun hx => (hOld (autoJoinAll_transfers _ _ ▸ hx)).1.of_subset
      (autoJoinAll_subset _ _)
  | blocks mem after =>
    exact hOf after fun hx => (hOld hx).1.updateMembership fun m _ _ _ _ hRole => ⟨rfl, rfl, hRole⟩

end Moves

/-! ### Runs -/

section Runs

variable {cfg : Config} {s s₀ : Sys} {steps : List (Sys × Event)}

theorem Db.Valid.deleteMembership {db : Db} (h : db.Valid) (id : Uuid) :
    (db.deleteMembership id).Valid := by
  have hRows : (db.deleteMembership id).memberships.Sublist db.memberships := List.filter_sublist
  exact { h with
    membershipId := h.membershipId.sublist (hRows.map _)
    membershipUserTenant := h.membershipUserTenant.sublist (hRows.map _)
    membershipUser := fun m hm => h.membershipUser m (hRows.subset hm)
    membershipTenant := fun m hm => h.membershipTenant m (hRows.subset hm)
    membershipInvitedBy := fun m hm => h.membershipInvitedBy m (hRows.subset hm) }

/-- Who has passed `get_tenant_context` with the role passes `require_role`. -/
theorem Acts.requireRole {c : Ctx} {w : World} {token : Bearer} {header : Option String}
    {role : MemberRole} {tenant : Tenant} {actor : TenantMembership}
    (h : Acts c w token header role tenant actor) :
    ∃ m, (requireRole c role token header).run w = .ok (tenant, actor) m ∧ m.db = w.db := by
  obtain ⟨m, hGuard⟩ := h.guard
  refine ⟨m, ?_, (getTenantContext_acts hGuard).1⟩
  rw [WxcodeAdm.requireRole, Handler.run_bind_ok]
  exact ⟨_, m, hGuard, Handler.run_ensure_bind_ok.mpr ⟨h.level, rfl⟩⟩

/-- A request that passes its checks deletes the row of the member whom it dismisses. -/
theorem Dismisses.run {c : Ctx} {w : World} {r : Request} {userId tenantId : Uuid}
    {row : TenantMembership} (h : Dismisses c w r userId tenantId)
    (hRow : w.db.membership userId tenantId = some row) (hRole : row.role ≠ .owner) :
    ∃ m, (handle c r).run w = .ok .done ⟨w.db.deleteMembership row.id, m⟩ := by
  cases h with
  | removes acts other =>
    obtain ⟨⟨db, cache⟩, hGuard, hDb⟩ := acts.requireRole
    obtain rfl : db = w.db := hDb
    refine ⟨cache, Handler.run_bind_ok.mpr ⟨_, _, hGuard, ?_⟩⟩
    refine Handler.run_bind_ok.mpr ⟨(), ⟨w.db.deleteMembership row.id, cache⟩, ?_, rfl⟩
    rw [removeMember, Handler.run_ensure_bind_ok, Handler.run_query_bind, hRow,
      Handler.orRaise_some_bind, Handler.run_ensure_bind_ok]
    exact ⟨other, hRole, rfl⟩
  | leaves acts role =>
    obtain ⟨⟨db, cache⟩, hGuard⟩ := acts.guard
    obtain rfl : db = w.db := (getTenantContext_acts hGuard).1
    refine ⟨cache, Handler.run_bind_ok.mpr ⟨_, _, hGuard, ?_⟩⟩
    refine Handler.run_bind_ok.mpr ⟨(), ⟨w.db.deleteMembership row.id, cache⟩, ?_, rfl⟩
    obtain rfl := Option.some.inj (hRow.symm.trans acts.row)
    rw [leaveTenant, Handler.run_query_bind, hRow, asLoaded, Option.map_some, if_pos rfl,
      Handler.orRaise_some_bind, Handler.run_ensure_bind_ok]
    exact ⟨hRole, rfl⟩

/-- A request that dismisses the target of a transfer leaves the transfer without one. -/
theorem Step.dismisses {s' : Sys} {e : Event} {x : OwnershipTransfer} (hs : s.Sound cfg)
    (h : Step cfg s e s') (hTarget : s.world.db.Eligible x) (hx : x ∈ s.world.db.transfers)
    (hDismissed : Dismisses (e.ctx cfg) s.world e.request x.toUserId x.tenantId) :
    x ∈ s'.world.db.transfers ∧ ¬s'.world.db.Eligible x := by
  obtain ⟨row, hRow, hUser, hTenant, hRole⟩ := hTarget
  have hFound := hs.valid.membership_of_mem hRow
  rw [hUser, hTenant] at hFound
  obtain ⟨m, hRun⟩ := hDismissed.run hFound hRole
  rw [(h.returned hRun (hs.valid.deleteMembership row.id)).2]
  refine ⟨hx, ?_⟩
  rintro ⟨row', hRow', hUser', hTenant', -⟩
  obtain ⟨hMem, hNe⟩ := List.mem_filter.mp hRow'
  have hSame := hs.valid.membership_of_mem hMem
  rw [hUser', hTenant', hFound] at hSame
  obtain rfl := Option.some.inj hSame
  simp at hNe

/-- In a run from a state in which every tenant has one owner and no transfer is pending, every
transfer that has not expired is to a member other than the owner, in every state of the run,
exactly when no request takes the target of such a transfer out of the tenant. -/
theorem transfer_targets_member (hInit : Initial s₀) (hGoverned : s₀.world.db.AllGoverned)
    (hRun : Run (Step cfg) s₀ steps s) :
    Throughout (fun _ s => s.TargetsMembers) steps s ↔
      AtEach (fun _ step => SparesTargets cfg step) steps := by
  refine hRun.throughout_iff ?_ fun {pre m l n} hPre hStep hTargets => ?_
  · intro x hx
    rw [hInit.transfers] at hx
    cases hx
  · obtain ⟨hs, hAll⟩ := hPre.invariant
      (I := fun m => m.Sound cfg ∧ m.world.db.AllGoverned)
      (fun ⟨hs, hAll⟩ hStep => ⟨hStep.sound hs, hStep.keeps_allGoverned hs hAll⟩)
      ⟨hInit.sound, hGoverned⟩
    have hLater {x : OwnershipTransfer} (hLive : l.now ≤ x.expiresAt) : m.now ≤ x.expiresAt :=
      Nat.le_trans hStep.time hLive
    constructor
    · intro hAfter x hx hLive hDismissed
      obtain ⟨hx', hGone⟩ := hStep.dismisses hs (hTargets x hx (hLater hLive)) hx hDismissed
      exact hGone (hAfter x hx' (hStep.clock ▸ hLive))
    · intro hSpares x hx hLive
      rw [hStep.clock] at hLive
      refine (hStep.move hs).eligible hs.valid hAll hx fun hOld => ⟨hTargets x hOld (hLater hLive), ?_⟩
      exact hSpares x hOld hLive

end Runs

/-! ### A transfer without a target -/

def offeredToBob : Event × Sys :=
  teamSignedIn.2.sample (seconds 20) (.initiateTransfer (.signed aliceToken) (some "acme") ⟨2⟩)

def bobRemoved : Event × Sys :=
  offeredToBob.2.sample (seconds 30) (.removeMember (.signed aliceToken) (some "acme") ⟨2⟩)

/-- Alice signs in, offers the workspace to Bob and removes him. -/
def removedTarget : List (Sys × Event) :=
  [(teamStart, teamSignedIn.1), (teamSignedIn.2, offeredToBob.1), (offeredToBob.2, bobRemoved.1)]

theorem removedTarget_run : Run (Step sampleConfig) teamStart removedTarget bobRemoved.2 :=
  .cons teamSignedIn_step <| .cons (.of_admits (by decide) (by trivial)) <|
    .single (.of_admits (by decide) (by trivial))

/-- The transfer to the member who was removed is pending, and nobody can accept it. -/
theorem transfer_target_removed :
    ¬∀ (cfg : Config) (s₀ s : Sys) (steps : List (Sys × Event)), Initial s₀ →
      s₀.world.db.AllGoverned → Run (Step cfg) s₀ steps s →
      ∀ x ∈ s.world.db.transfers, s.now ≤ x.expiresAt → s.world.db.Eligible x := by
  intro hClaim
  have hTargets := hClaim sampleConfig teamStart bobRemoved.2 removedTarget teamStart_initial
    teamStart_governed removedTarget_run
  obtain ⟨m, hm, hUser, -⟩ := hTargets ⟨⟨1⟩, ⟨5⟩, ⟨1⟩, ⟨2⟩, seconds 20 + days 7⟩ (by decide)
    (by decide)
  have hRows : bobRemoved.2.world.db.memberships =
      [⟨⟨10⟩, ⟨1⟩, ⟨5⟩, .owner, true, false, none, 0⟩] := by decide
  rw [hRows] at hm
  obtain rfl := List.mem_singleton.mp hm
  exact absurd hUser (by decide)

/-- The law at this run. -/
theorem transfer_targets_member_removed :
    Throughout (fun _ s => s.TargetsMembers) removedTarget bobRemoved.2 ↔
      AtEach (fun _ step => SparesTargets sampleConfig step) removedTarget :=
  transfer_targets_member teamStart_initial teamStart_governed removedTarget_run

end WxcodeAdm
