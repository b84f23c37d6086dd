import WxcodeAdm.Grants
import WxcodeAdm.Guarantees.AutoJoin

/-! Who can give a role.  A role comes from `change_role` by a member who has at least that level,
from an invitation by a member who had it when inviting, or from a transfer by the owner of the
time; and nothing but the transfer touches the row of the owner. -/

namespace WxcodeAdm

open Lib

/-- The membership is new, or has a higher role than it had. -/
def Raised (db db' : Db) (m : TenantMembership) : Prop :=
  m ∈ db'.memberships ∧ ∀ m₀ ∈ db.memberships, m₀.id = m.id → m₀.role.level < m.role.level

/-- The request is `accept_transfer` by the user, for a transfer that a step created who was then
the owner. -/
def TakesOver (cfg : Config) (steps : List (Sys × Event)) (s : Sys) (e : Event)
    (userId tenantId : Uuid) : Prop :=
  ∃ token header tenant member, e.request = .acceptTransfer token header ∧
    Acts (e.ctx cfg) s.world token header member.role tenant member ∧ member.userId = userId ∧
    tenant.id = tenantId ∧ ∃ x ∈ s.world.db.transfers, x.toUserId = userId ∧ x.tenantId = tenantId ∧
      ∃ p ∈ steps, Offers (p.2.ctx cfg) p.1.world p.2.request x

/-- The request redeems the invitation for the user it was sent to. -/
inductive Redeeming (c : Ctx) (w : World) (user : User) (i : Invitation) : Request → Prop
  | accepts {bearer token} (guard : ∃ m, (requireVerified c bearer).run w = .ok user m)
      (checked : w.db.Redeems c user token i) :
      Redeeming c w user i (.acceptInvitation bearer token)
  | verifies {email code} (found : w.db.userByEmail email = some user)
      (mem : i ∈ w.db.invitations) (due : i.Due c.now w.db user) :
      Redeeming c w user i (.verifyEmail email code)

/-- The request gives the membership its role by right. -/
inductive Granted (cfg : Config) (steps : List (Sys × Event)) (s : Sys) (e : Event)
    (m : TenantMembership) : Prop
  | founds {token name user} (request : e.request = .createWorkspace token name)
      (guard : ∃ w, (requireVerified (e.ctx cfg) token).run s.world = .ok user w)
      (creator : m.userId = user.id) (role : m.role = .owner) (new : ¬s.world.db.HasTenant m.tenantId)
  | changes {token header body tenant actor}
      (request : e.request = .changeMemberRole token header m.userId body)
      (acts : Acts (e.ctx cfg) s.world token header .admin tenant actor)
      (inTenant : m.tenantId = tenant.id) (level : m.role.level ≤ actor.role.level)
  | invited {user i p token header body tenant actor}
      (redeems : Redeeming (e.ctx cfg) s.world user i e.request) (made : i.Grants user m)
      (past : p ∈ steps) (inviting : p.2.request = .createInvitation token header body)
      (sent : i.issued = invitationFor (p.2.ctx cfg) tenant actor body)
      (acts : Acts (p.2.ctx cfg) p.1.world token header .admin tenant actor)
      (inTenant : m.tenantId = tenant.id) (inviter : m.invitedById = some actor.userId)
      (level : m.role.level ≤ actor.role.level)
  | succeeds (takesOver : TakesOver cfg steps s e m.userId m.tenantId)

/-- The row is there with the same role and billing access. -/
def Db.Retains (db : Db) (owner : TenantMembership) : Prop :=
  ∃ m ∈ db.memberships, m.id = owner.id ∧ m.userId = owner.userId ∧ m.tenantId = owner.tenantId ∧
    m.role = owner.role ∧ m.billingAccess = owner.billingAccess

section Steps

variable {cfg : Config} {s₀ s s' : Sys} {e : Event} {steps : List (Sys × Event)}
  {m o : TenantMembership}

theorem RequestedRole.level_le (role : RequestedRole) :
    role.role.level ≤ MemberRole.admin.level := by
  obtain ⟨role, hRole⟩ := role
  cases role <;> simp [MemberRole.level] at hRole ⊢

/-- A row that was there as it is was not raised. -/
theorem not_raised {db db' : Db} (hm : m ∈ db.memberships) : ¬Raised db db' m :=
  fun h => Nat.lt_irrefl _ (h.2 m hm rfl)

theorem Raised.of_rows {db db' after : Db} (h : Raised db db' m)
    (hTeam : db'.team = after.team) : Raised db after m :=
  ⟨(congrArg (fun t => t.1) hTeam : db'.memberships = after.memberships) ▸ h.1, h.2⟩

theorem not_raised_of_subset {db after : Db} (hSub : after.memberships ⊆ db.memberships) :
    ¬Raised db after m :=
  fun h => not_raised (hSub h.1) h

/-- An update of one row raises that row at most, and makes its role what it says. -/
theorem Raised.updateMembership {db : Db} (hValid : db.Valid) {target : TenantMembership}
    {f : TenantMembership → TenantMembership} (hTarget : target ∈ db.memberships)
    (h : Raised db (db.updateMembership target.id f) m) : m = f target := by
  obtain ⟨row, hRow, rfl⟩ := List.mem_map.mp h.1
  by_cases hId : row.id = target.id
  · obtain rfl := hValid.membership_id hRow hTarget hId
    rw [if_pos rfl]
  · rw [if_neg hId] at h
    exact absurd h (not_raised hRow)

/-- What an invitation that is redeemed grants was the inviter's to give. -/
theorem Granted.redeemed (hInit : Initial s₀) (hRun : Run (Step cfg) s₀ steps s)
    {user : User} {index : Nat} {i : Invitation} (hi : i ∈ s.world.db.invitations)
    (hRedeems : Redeeming (e.ctx cfg) s.world user i e.request) :
    Granted cfg steps s e (invitedMembership (e.ctx cfg) index user i) := by
  obtain ⟨p, hp, hInvites⟩ := invitation_origin hInit hRun hi
  generalize hInviting : p.2.request = r, hIssued : i.issued = i' at hInvites
  cases hInvites with
  | @intro token header body tenant actor acts =>
    have hRole : i.role = body.role.role := congrArg (fun i : Invitation => i.role) hIssued
    have hTenant : i.tenantId = tenant.id := congrArg (fun i : Invitation => i.tenantId) hIssued
    have hInviter : i.invitedById = actor.userId :=
      congrArg (fun i : Invitation => i.invitedById) hIssued
    refine .invited hRedeems (invitedMembership_grants _ _ _ _) hp hInviting hIssued acts hTenant
      (congrArg some hInviter) ?_
    change i.role.level ≤ actor.role.level
    rw [hRole]
    exact Nat.le_trans body.role.level_le acts.level

/-- Whoever is raised by accepting a transfer is the one who accepts it. -/
theorem Raised.swap {db : Db} (hValid : db.Valid) {tenantId : Uuid} {x : OwnershipTransfer}
    {member : TenantMembership} (hGoverned : db.Governed tenantId) (hMember : member ∈ db.memberships)
    (hx : x ∈ db.transfers) (hTenant : x.tenantId = tenantId)
    (h : Raised db (((db.setRole (db.membership x.fromUserId tenantId) .admin).setRole (some member)
      .owner).deleteTransfers fun x' => x'.id = x.id) m) :
    m = { member with role := .owner } := by
  obtain ⟨owner, hSole, hFrom⟩ := hGoverned
  obtain ⟨hOwner, hOwns⟩ := hSole.mem
  obtain ⟨hIn, hRole⟩ := isOwnerOf_iff.mp hOwns
  have hRow : db.membership x.fromUserId tenantId = some owner := by
    rw [hFrom x hx hTenant, ← hIn]
    exact hValid.membership_of_mem hOwner
  have hMem := h.1
  rw [hRow] at hMem
  change m ∈ ((db.setRole (some owner) .admin).setRole (some member) .owner).memberships at hMem
  rw [Db.Governed.setRole_setRole] at hMem
  obtain ⟨row, hOld, rfl⟩ := List.mem_map.mp hMem
  have hHigher := h.2 row hOld
  unfold Db.Governed.swapped at hHigher ⊢
  split_ifs at hHigher ⊢ with hTo hWas
  · obtain rfl := hValid.membership_id hOld hMember hTo
    rfl
  · obtain rfl := hValid.membership_id hOld hOwner hWas
    have hLower : row.role.level < MemberRole.admin.level := hHigher rfl
    rw [hRole] at hLower
    exact absurd hLower (by decide)
  · exact absurd (hHigher rfl) (Nat.lt_irrefl _)

theorem Step.granted (hInit : Initial s₀) (hRun : Run (Step cfg) s₀ steps s) (hs : s.Sound cfg)
    (hGoverned : s.world.db.AllGoverned) (hStep : Step cfg s e s')
    (hRaised : Raised s.world.db s'.world.db m) : Granted cfg steps s e m := by
  have hMove := hStep.move hs
  generalize hRequest : e.request = r at hMove
  cases hMove with
  | idle after => exact absurd (hRaised.of_rows after) (not_raised_of_subset (List.Subset.refl _))
  | @founds token name user tenant membership guard new creator inTenant role _ after =>
    rcases List.mem_append.mp (hRaised.of_rows after).1 with hOld | hNew
    · exact absurd hRaised (not_raised hOld)
    · obtain rfl := List.mem_singleton.mp hNew
      exact .founds hRequest guard creator role (inTenant ▸ new)
  | @changesRole token header userId body tenant actor target acts found _ _ after =>
    have hSaved := hRaised.of_rows after
    unfold Db.saveMembership at hSaved
    split at hSaved
    · exact absurd hSaved.1 fun hm => not_raised hm hRaised
    · obtain ⟨hTarget, hUser, hTenant⟩ := Db.membership_mem found
      obtain rfl := hSaved.updateMembership hs.valid hTarget
      refine .changes (hUser ▸ hRequest) acts hTenant ?_
      dsimp only
      split
      · rename_i hSame
        refine Nat.le_trans ?_ acts.level
        rw [← hSame]
        exact body.role.level_le
      · exact Nat.le_trans body.role.level_le acts.level
  | removes _ _ _ _ after | leaves _ _ after =>
    exact absurd (hRaised.of_rows after) (not_raised_of_subset (List.filter_subset_self _))
  | offers _ _ _ _ _ after | invites _ after | cancels _ _ after =>
    exact absurd (hRaised.of_rows after) (not_raised_of_subset (List.Subset.refl _))
  | @accepts token header tenant member x acts mem inTenant target _ after =>
    obtain ⟨hMember, hIn⟩ := acts.mem
    obtain rfl := (hRaised.of_rows after).swap hs.valid (hGoverned tenant acts.known) hMember mem
      inTenant
    refine .succeeds ⟨token, header, tenant, member, hRequest, acts, rfl, hIn.symm, x, mem, target,
      inTenant.trans hIn.symm, ?_⟩
    exact transfer_origin hInit hRun mem
  | @redeems bearer token user i guard checked after =>
    rcases List.mem_append.mp (hRaised.of_rows after).1 with hOld | hNew
    · exact absurd hRaised (not_raised hOld)
    · obtain rfl := List.mem_singleton.mp hNew
      exact .redeemed hInit hRun checked.mem (hRequest ▸ .accepts guard checked)
  | @autoJoins email code user found _ _ after =>
    have hMem := (hRaised.of_rows after).1
    rw [autoJoinAll_exact hs.valid.toUniqueKeys] at hMem
    rcases mem_joinedDue_memberships hMem with hOld | ⟨index, i, hIs, rfl⟩
    · exact absurd hRaised (not_raised hOld)
    · obtain ⟨hi, hDue⟩ := mem_dueInvitations.mp hIs
      exact .redeemed hInit hRun hi (hRequest ▸ .verifies found hi hDue)
  | @blocks _ member blocked mem after =>
    obtain rfl := (hRaised.of_rows after).updateMembership hs.valid mem
    exact absurd (hRaised.2 member mem rfl) (Nat.lt_irrefl _)

/-! ### The row of the owner -/

theorem Db.Retains.of_mem {db : Db} (h : o ∈ db.memberships) : db.Retains o :=
  ⟨o, h, rfl, rfl, rfl, rfl, rfl⟩

theorem Db.Retains.of_rows {db' after : Db} (h : after.Retains o)
    (hTeam : db'.team = after.team) : db'.Retains o := by
  have hRows : db'.memberships = after.memberships := congrArg (fun t => t.1) hTeam
  unfold Db.Retains
  rw [hRows]
  exact h

theorem Db.Retains.updateMembership {db : Db} {id : Uuid} {f : TenantMembership → TenantMembership}
    (ho : o ∈ db.memberships) (hf : o.id = id → (f o).id = o.id ∧ (f o).userId = o.userId ∧
      (f o).tenantId = o.tenantId ∧ (f o).role = o.role ∧ (f o).billingAccess = o.billingAccess) :
    (db.updateMembership id f).Retains o := by
  refine ⟨_, List.mem_map_of_mem ho, ?_⟩
  split
  · exact hf ‹_›
  · exact ⟨rfl, rfl, rfl, rfl, rfl⟩

/-- Another row than the owner's is deleted. -/
theorem Db.Retains.deleteMembership {db : Db} (hValid : db.Valid) {row : TenantMembership}
    (ho : o ∈ db.memberships) (hRow : row ∈ db.memberships) (hOwner : o.role = .owner)
    (hRole : row.role ≠ .owner) : (db.deleteMembership row.id).Retains o := by
  refine .of_mem (List.mem_filter.mpr ⟨ho, ?_⟩)
  have hNe : o.id ≠ row.id := by
    intro hId
    obtain rfl := hValid.membership_id ho hRow hId
    exact hRole hOwner
  simpa using hNe

theorem Db.Retains.setRole {db : Db} (ho : o ∈ db.memberships) {row : Option TenantMembership}
    {role : MemberRole} (hRow : ∀ y ∈ row, o.id ≠ y.id) :
    o ∈ (db.setRole row role).memberships := by
  cases row with
  | none => exact ho
  | some y => exact List.mem_map.mpr ⟨o, ho, if_neg (hRow y rfl)⟩

theorem Step.retains (hInit : Initial s₀) (hRun : Run (Step cfg) s₀ steps s) (hs : s.Sound cfg)
    (hGoverned : s.world.db.AllGoverned) (hStep : Step cfg s e s') (ho : o ∈ s.world.db.memberships)
    (hOwner : o.role = .owner) :
    s'.world.db.Retains o ∨ ∃ userId, TakesOver cfg steps s e userId o.tenantId := by
  have hMove := hStep.move hs
  generalize hRequest : e.request = r at hMove
  cases hMove with
  | idle after => exact .inl ((Db.Retains.of_mem ho).of_rows after)
  | founds _ _ _ _ _ _ after =>
    exact .inl ((Db.Retains.of_mem (List.mem_append_left _ ho)).of_rows after)
  | @changesRole _ _ userId body tenant actor target acts found self demotes after =>
    refine .inl (Db.Retains.of_rows ?_ after)
    unfold Db.saveMembership
    split
    · exact .of_mem ho
    · refine .updateMembership ho fun hId => ?_
      -- the target would be the owner, and so would whoever changes it
      obtain ⟨hTarget, hUser, hTenant⟩ := Db.membership_mem found
      obtain rfl := hs.valid.membership_id ho hTarget hId
      have hActor : actor.role = .owner := by
        by_contra hRole
        exact demotes ⟨hOwner, hRole⟩
      obtain ⟨owner, hSole, -⟩ := hGoverned tenant acts.known
      have hFirst := hSole.eq ho (isOwnerOf_iff.mpr ⟨hTenant, hOwner⟩)
      have hSecond := hSole.eq acts.mem.1 (isOwnerOf_iff.mpr ⟨acts.mem.2, hActor⟩)
      exact absurd ⟨hOwner, by rw [hFirst, hSecond]⟩ self
  | removes _ _ found role after =>
    exact .inl ((Db.Retains.deleteMembership hs.valid ho (Db.membership_mem found).1 hOwner
      role).of_rows after)
  | leaves acts role after =>
    exact .inl ((Db.Retains.deleteMembership hs.valid ho acts.mem.1 hOwner role).of_rows after)
  | offers _ _ _ _ _ after | invites _ after | cancels _ _ after =>
    refine .inl (Db.Retains.of_rows ?_ after)
    exact .of_mem ho
  | @accepts token header tenant member x acts mem inTenant target _ after =>
    obtain ⟨hMember, hIn⟩ := acts.mem
    by_cases hTenant : tenant.id = o.tenantId
    · exact .inr ⟨member.userId, token, header, tenant, member, hRequest, acts, rfl, hTenant, x, mem,
        target, inTenant.trans hTenant, transfer_origin hInit hRun mem⟩
    · refine .inl (Db.Retains.of_rows (.of_mem ?_) after)
      have hOther {y : TenantMembership} (hy : y ∈ s.world.db.memberships)
          (hSame : y.tenantId = tenant.id) : o.id ≠ y.id := by
        intro hId
        obtain rfl := hs.valid.membership_id ho hy hId
        exact hTenant hSame.symm
      refine Db.Retains.setRole (Db.Retains.setRole ho fun y hFound => ?_) fun y hy => ?_
      · obtain ⟨hy, -, hSame⟩ := Db.membership_mem hFound
        exact hOther hy hSame
      · obtain rfl := Option.some.inj hy
        exact hOther hMember hIn
  | redeems _ _ after =>
    exact .inl (Db.Retains.of_rows (.of_mem (List.mem_append_left _ ho)) after)
  | autoJoins _ _ _ after =>
    obtain ⟨joined, -, hJoined⟩ := autoJoinAll_joined (e.ctx cfg) _ s.world.db
    refine .inl (Db.Retains.of_rows (.of_mem ?_) after)
    rw [hJoined.memberships]
    exact List.mem_append_left _ ho
  | blocks _ after =>
    exact .inl (Db.Retains.of_rows (.updateMembership ho fun _ => ⟨rfl, rfl, rfl, rfl, rfl⟩) after)

/-- After any run from a state in which every tenant has one owner, a request creates or raises a
membership only by right, and leaves the role and the billing access of every owner's row unless it
is the acceptance of a transfer that the owner of its time has started. -/
theorem no_escalation (hInit : Initial s₀) (hGoverned : s₀.world.db.AllGoverned)
    (hRun : Run (Step cfg) s₀ steps s) (hStep : Step cfg s e s') :
    (∀ m, Raised s.world.db s'.world.db m → Granted cfg steps s e m) ∧
      ∀ o ∈ s.world.db.memberships, o.role = .owner →
        s'.world.db.Retains o ∨ ∃ userId, TakesOver cfg steps s e userId o.tenantId := by
  obtain ⟨hs, hAll⟩ := hRun.invariant
    (I := fun m => m.Sound cfg ∧ m.world.db.AllGoverned)
    (fun ⟨hs, hAll⟩ hStep => ⟨hStep.sound hs, hStep.keeps_allGoverned hs hAll⟩)
    ⟨hInit.sound, hGoverned⟩
  exact ⟨fun m hRaised => hStep.granted hInit hRun hs hAll hRaised,
    fun o ho hOwner => hStep.retains hInit hRun hs hAll ho hOwner⟩

end Steps

/-! ### Bob becomes the owner -/

def bobOffered : Event × Sys :=
  teamSignedIn.2.sample (seconds 20) (.initiateTransfer (.signed aliceToken) (some "acme") ⟨2⟩)

def bobSignedIn : Event × Sys :=
  bobOffered.2.sample (seconds 30) (.login "bob@example.com" "pw" none none none)

def bobToken : Payload :=
  { aliceToken with sub := ⟨2⟩, iat := 30, exp := 86430, jti := ⟨2⟩, role := some "admin" }

def bobAccepts : Event × Sys :=
  bobSignedIn.2.sample (seconds 40) (.acceptTransfer (.signed bobToken) (some "acme"))

def beforeAcceptance : List (Sys × Event) :=
  [(teamStart, teamSignedIn.1), (teamSignedIn.2, bobOffered.1), (bobOffered.2, bobSignedIn.1)]

theorem beforeAcceptance_run :
    Run (Step sampleConfig) teamStart beforeAcceptance bobSignedIn.2 :=
  .cons teamSignedIn_step <| .cons (.of_admits (by decide) (by trivial)) <|
    .single (.of_admits (by decide) (by trivial))

/-- The law at the acceptance that makes Bob the owner. -/
theorem no_escalation_bob : Granted sampleConfig beforeAcceptance bobSignedIn.2 bobAccepts.1
    ⟨⟨11⟩, ⟨2⟩, ⟨5⟩, .owner, false, false, none, 0⟩ :=
  (no_escalation teamStart_initial teamStart_governed beforeAcceptance_run
    (.of_admits (by decide) (by trivial) : Step sampleConfig _ bobAccepts.1 bobAccepts.2)).1 _
    ⟨by decide, by decide⟩

end WxcodeAdm
