import WxcodeAdm.Moves
import WxcodeAdm.Tenants.Joining

/-! The member cap of a plan.  It is tested against the members, and only when an invitation is
created: invitations that are outstanding do not count, and neither way of redeeming one looks at
the cap. -/

namespace WxcodeAdm

open Lib

/-- The number that `enforce_member_cap` counts. -/
def Db.memberCount (db : Db) (tenantId : Uuid) : Nat := (db.memberIds tenantId).length

/-- The member cap of the tenant's plan. -/
def Db.memberCap (db : Db) (tenantId : Uuid) : Option Int :=
  (db.subscriptionOf tenantId).bind fun s => (db.plan s.planId).map fun p => p.memberCap

/-- The request makes somebody a member of the tenant: it redeems an invitation to it. -/
inductive Joins (c : Ctx) (w : World) (tenantId : Uuid) : Request → Prop
  | accepts {bearer token user invitation}
      (guard : ∃ m, (requireVerified c bearer).run w = .ok user m)
      (checked : w.db.Redeems c user token invitation) (named : invitation.tenantId = tenantId) :
      Joins c w tenantId (.acceptInvitation bearer token)
  | verifies {email code user} (found : w.db.userByEmail email = some user)
      (unverified : user.emailVerified = false)
      (accepted : w.cache.otp.get c.now user.id = some code)
      (newcomer : w.db.membership user.id tenantId = none)
      (pending : ∃ i ∈ w.db.invitations, i.email = user.email ∧ i.tenantId = tenantId ∧
        i.acceptedAt = none ∧ c.now < i.expiresAt) :
      Joins c w tenantId (.verifyEmail email code)

section Count

variable {db db' : Db} {tenantId : Uuid} {c : Ctx} {w w' : World} {r : Request}

theorem memberCount_eq :
    db.memberCount tenantId = (db.memberships.map fun m => m.tenantId).count tenantId := by
  rw [Db.memberCount, Db.memberIds, List.length_map, ← List.countP_eq_length_filter, List.count,
    List.countP_map]
  refine List.countP_congr fun m _ => ?_
  simp

theorem memberCount_of_rows (h : db'.memberships = db.memberships) :
    db'.memberCount tenantId = db.memberCount tenantId := by
  simp only [Db.memberCount, Db.memberIds, h]

theorem memberCount_append {m : TenantMembership}
    (h : db'.memberships = db.memberships ++ [m]) :
    db'.memberCount tenantId =
      db.memberCount tenantId + if m.tenantId = tenantId then 1 else 0 := by
  rw [memberCount_eq, memberCount_eq, h, List.map_append, List.count_append, List.map_singleton,
    List.count_singleton]
  simp

theorem memberCount_delete {p : TenantMembership → Bool}
    (h : db'.memberships = db.memberships.filter p) :
    db'.memberCount tenantId ≤ db.memberCount tenantId := by
  rw [memberCount_eq, memberCount_eq, h]
  exact (List.filter_sublist.map _).count_le _

theorem memberCount_map {f : TenantMembership → TenantMembership}
    (hf : ∀ m, (f m).tenantId = m.tenantId) (h : db'.memberships = db.memberships.map f) :
    db'.memberCount tenantId = db.memberCount tenantId := by
  rw [memberCount_eq, memberCount_eq, h, List.map_map]
  exact congrArg (List.count tenantId) (List.map_congr_left fun m _ => hf m)

theorem memberCount_update {id : Uuid} {f : TenantMembership → TenantMembership}
    (hf : ∀ m, (f m).tenantId = m.tenantId) :
    (db.updateMembership id f).memberCount tenantId = db.memberCount tenantId := by
  refine memberCount_map (fun m => ?_) rfl
  split
  · exact hf m
  · rfl

theorem memberCount_setRole (row : Option TenantMembership) (role : MemberRole) :
    (db.setRole row role).memberCount tenantId = db.memberCount tenantId := by
  cases row with
  | none => rfl
  | some _ => exact memberCount_update fun _ => rfl

/-- The invitations that a verification redeems are in different tenants. -/
theorem memberCount_autoJoin {user : User} :
    (autoJoinAll c user db).1.memberCount tenantId = db.memberCount tenantId ∨
      (autoJoinAll c user db).1.memberCount tenantId = db.memberCount tenantId + 1 ∧
        db.membership user.id tenantId = none ∧ ∃ i ∈ db.invitations, i.email = user.email ∧
          i.tenantId = tenantId ∧ i.acceptedAt = none ∧ c.now < i.expiresAt := by
  obtain ⟨joined, hSub, hJoined⟩ := autoJoinAll_joined c user db
  have hCount : (autoJoinAll c user db).1.memberCount tenantId =
      db.memberCount tenantId + (joined.map fun i => i.tenantId).count tenantId := by
    have hTenants : (autoJoinAll c user db).2.map (fun m => m.tenantId) =
        joined.map fun i => i.tenantId := hJoined.made_map fun _ _ => rfl
    rw [memberCount_eq, memberCount_eq, hJoined.memberships, List.map_append, List.count_append,
      hTenants]
  by_cases hIn : tenantId ∈ joined.map fun i => i.tenantId
  · obtain ⟨i, hi, rfl⟩ := List.mem_map.mp hIn
    rw [hCount, List.count_eq_one_of_mem hJoined.tenants hIn]
    obtain ⟨hLive, hNone⟩ := hJoined.live i hi
    have hPending : i ∈ db.invitations ∧ i.email = user.email ∧ i.acceptedAt = none := by
      simpa using hSub.subset hi
    exact .inr ⟨rfl, hNone, i, hPending.1, hPending.2.1, rfl, hPending.2.2, hLive⟩
  · rw [hCount, List.count_eq_zero_of_not_mem hIn]
    exact .inl rfl

/-- A move makes at most one member more in a tenant, and only by redeeming an invitation. -/
theorem Move.memberCount (hTenant : w.db.HasTenant tenantId) (hMove : Move c w w' r) :
    w'.db.memberCount tenantId ≤ w.db.memberCount tenantId ∨
      w'.db.memberCount tenantId = w.db.memberCount tenantId + 1 ∧ Joins c w tenantId r := by
  have hOf {after : Db} (hTeam : w'.db.team = after.team) :
      w'.db.memberCount tenantId = after.memberCount tenantId :=
    memberCount_of_rows (congrArg (fun t => t.1) hTeam)
  cases hMove with
  | idle after => exact .inl (Nat.le_of_eq (hOf after))
  | founds _ new _ inTenant _ _ after =>
    refine .inl ?_
    rw [hOf after, memberCount_append rfl, if_neg fun hSame => new (inTenant.symm.trans hSame ▸ hTenant)]
    exact Nat.le_refl _
  | changesRole _ _ _ _ after =>
    refine .inl ?_
    rw [hOf after, Db.saveMembership]
    split
    · exact Nat.le_refl _
    · exact Nat.le_of_eq (memberCount_update fun _ => rfl)
  | removes _ _ _ _ after | leaves _ _ after =>
    rw [hOf after]
    exact .inl (memberCount_delete rfl)
  | offers _ _ _ _ _ after | invites _ after | cancels _ _ after =>
    rw [hOf after]
    exact .inl (Nat.le_refl _)
  | @accepts _ _ tenant member transfer _ _ _ _ _ after =>
    refine .inl ?_
    refine Nat.le_of_eq ((hOf after).trans ?_)
    change (Db.setRole _ (some member) .owner).memberCount tenantId = _
    rw [memberCount_setRole, memberCount_setRole]
  | redeems guard checked after =>
    rw [hOf after, memberCount_append rfl]
    split
    · rename_i hSame
      exact .inr ⟨rfl, .accepts guard checked hSame⟩
    · exact .inl (Nat.le_refl _)
  | autoJoins found unverified accepted after =>
    rw [hOf after]
    rcases memberCount_autoJoin with hSame | ⟨hMore, hNone, hPending⟩
    · exact .inl (Nat.le_of_eq hSame)
    · exact .inr ⟨hMore, .verifies found unverified accepted hNone hPending⟩
  | blocks _ after =>
    rw [hOf after]
    exact .inl (Nat.le_of_eq (memberCount_update fun _ => rfl))

end Count

/-! ### Runs -/

/-- The tenant has no more members than a positive cap of its plan. -/
def Db.CapHolds (db : Db) (tenantId : Uuid) : Prop :=
  ∀ cap ∈ db.memberCap tenantId, 0 < cap → (db.memberCount tenantId : Int) ≤ cap

instance (db : Db) (tenantId : Uuid) : Decidable (db.CapHolds tenantId) :=
  inferInstanceAs (Decidable (∀ cap ∈ _, _))

/-- A request that redeems an invitation to the tenant finds it below its cap. -/
def JoinsBelowCap (cfg : Config) (tenantId : Uuid) (step : Sys × Event) : Prop :=
  Joins (step.2.ctx cfg) step.1.world tenantId step.2.request →
    ∀ cap ∈ step.1.world.db.memberCap tenantId, 0 < cap →
      (step.1.world.db.memberCount tenantId : Int) < cap

section Runs

variable {cfg : Config} {s s' s₀ : Sys} {e : Event} {tenantId : Uuid} {steps : List (Sys × Event)}

theorem Step.capHolds (hs : s.Sound cfg) (h : Step cfg s e s')
    (hTenant : s.world.db.HasTenant tenantId) (hCap : s.world.db.CapHolds tenantId)
    (hFixed : s'.world.db.memberCap tenantId = s.world.db.memberCap tenantId)
    (hBelow : JoinsBelowCap cfg tenantId (s, e)) : s'.world.db.CapHolds tenantId := by
  intro cap hPlan hPos
  rw [hFixed] at hPlan
  have hBefore := hCap cap hPlan hPos
  rcases (h.move hs).memberCount hTenant with hLe | ⟨hMore, hJoins⟩
  · omega
  · have hRoom := hBelow hJoins cap hPlan hPos
    dsimp only at hRoom
    omega

/-- While the plan of a tenant keeps its member cap, the members stay within it in every run in
which whoever redeems an invitation finds the tenant below the cap. -/
theorem member_cap_holds (hReach : Reachable cfg s₀) (hTenant : s₀.world.db.HasTenant tenantId)
    (hCap : s₀.world.db.CapHolds tenantId) (hRun : Run (Step cfg) s₀ steps s)
    (hFixed : Throughout (fun _ m => m.world.db.memberCap tenantId =
      s₀.world.db.memberCap tenantId) steps s)
    (hBelow : ∀ step ∈ steps, JoinsBelowCap cfg tenantId step) : s.world.db.CapHolds tenantId := by
  suffices h : s.Sound cfg ∧ s.world.db.HasTenant tenantId ∧ s.world.db.CapHolds tenantId from h.2.2
  induction hRun with
  | nil => exact ⟨hReach.sound, hTenant, hCap⟩
  | @snoc steps m s' e hRun hStep ih =>
    obtain ⟨hBefore, hNow⟩ := atEach_snoc.mp hFixed.1
    simp only [List.mem_append, List.mem_singleton] at hBelow
    obtain ⟨hs, hKnown, hHolds⟩ := ih ⟨hBefore, hNow⟩ fun step hIn => hBelow step (.inl hIn)
    refine ⟨hStep.sound hs, hStep.hasTenant hs hKnown, ?_⟩
    exact hStep.capHolds hs hKnown hHolds (hFixed.2.trans hNow.symm) (hBelow _ (.inr rfl))

end Runs

/-! ### Two invitations for one place -/

def teamPlan : Plan where
  id := ⟨1⟩
  monthlyFeeCents := 0
  memberCap := 2
  createdAt := 0

def carol : User := { sampleUser with id := ⟨3⟩, email := "carol@example.com" }

/-- Alice owns a workspace for two; Bob and Carol have not verified their addresses yet. -/
def capStart : Sys := sampleStart
  { users := [sampleUser, { bob with emailVerified := false }, { carol with emailVerified := false }]
    tenants := [acme]
    memberships := [⟨⟨10⟩, ⟨1⟩, ⟨5⟩, .owner, true, false, none, 0⟩]
    plans := [teamPlan]
    subscriptions := [{ tenantId := ⟨5⟩, planId := ⟨1⟩, status := .free }] }

def capSignedIn : Event × Sys :=
  capStart.sample (seconds 10) (.login "alice@example.com" "pw" none none none)

def bobInvited : Event × Sys :=
  capSignedIn.2.sample (seconds 20) (.createInvitation (.signed aliceToken) (some "acme")
    ⟨"bob@example.com", ⟨.viewer, MemberRole.viewer_ne_owner⟩, false⟩)

def carolInvited : Event × Sys :=
  bobInvited.2.sample (seconds 30) (.createInvitation (.signed aliceToken) (some "acme")
    ⟨"carol@example.com", ⟨.viewer, MemberRole.viewer_ne_owner⟩, false⟩)

def bobSent : Event × Sys := carolInvited.2.sample (seconds 40) (.resendVerification "bob@example.com")

def bobJoined : Event × Sys := bobSent.2.sample (seconds 50) (.verifyEmail "bob@example.com" "482913")

def carolSent : Event × Sys :=
  bobJoined.2.sample (seconds 60) (.resendVerification "carol@example.com")

def carolJoined : Event × Sys :=
  carolSent.2.sample (seconds 70) (.verifyEmail "carol@example.com" "482913")

/-- Alice invites both while there is a place for one, and both verify their addresses. -/
def overfilled : List (Sys × Event) :=
  [(capStart, capSignedIn.1), (capSignedIn.2, bobInvited.1), (bobInvited.2, carolInvited.1),
    (carolInvited.2, bobSent.1), (bobSent.2, bobJoined.1), (bobJoined.2, carolSent.1),
    (carolSent.2, carolJoined.1)]

theorem overfilled_run : Run (Step sampleConfig) capStart overfilled carolJoined.2 :=
  .cons (.of_admits (by decide) (by trivial)) <| .cons (.of_admits (by decide) (by trivial)) <|
    .cons (.of_admits (by decide) (by trivial)) <| .cons (.of_admits (by decide) (by trivial)) <|
    .cons (.of_admits (by decide) (by trivial)) <| .cons (.of_admits (by decide) (by trivial)) <|
    .single (.of_admits (by decide) (by trivial))

theorem capStart_initial : Initial capStart := ⟨by decide, rfl, rfl, rfl, rfl, rfl, rfl⟩

/-- Three members on a plan for two. -/
theorem member_cap_exceeded :
    ¬∀ (cfg : Config) (s₀ s : Sys) (steps : List (Sys × Event)) (tenantId : Uuid),
      Reachable cfg s₀ → s₀.world.db.HasTenant tenantId → s₀.world.db.CapHolds tenantId →
      Run (Step cfg) s₀ steps s →
      Throughout (fun _ m => m.world.db.memberCap tenantId = s₀.world.db.memberCap tenantId)
        steps s →
      s.world.db.CapHolds tenantId := by
  intro hClaim
  have hCap : carolJoined.2.world.db.CapHolds ⟨5⟩ :=
    hClaim sampleConfig capStart carolJoined.2 overfilled ⟨5⟩ capStart_initial.reachable
      (by decide) (by decide) overfilled_run ⟨by decide, by decide⟩
  exact absurd (hCap 2 (by decide) (by decide)) (by decide)

/-- The law up to the first of them. -/
theorem member_cap_holds_bobJoined : bobJoined.2.world.db.CapHolds ⟨5⟩ := by
  have hRun : Run (Step sampleConfig) capStart (overfilled.take 5) bobJoined.2 :=
    .cons (.of_admits (by decide) (by trivial)) <| .cons (.of_admits (by decide) (by trivial)) <|
      .cons (.of_admits (by decide) (by trivial)) <| .cons (.of_admits (by decide) (by trivial)) <|
      .single (.of_admits (by decide) (by trivial))
  have hBelow : ∀ step ∈ overfilled.take 5, ∀ cap ∈ step.1.world.db.memberCap ⟨5⟩, 0 < cap →
      (step.1.world.db.memberCount ⟨5⟩ : Int) < cap := by decide
  exact member_cap_holds capStart_initial.reachable (by decide) (by decide) hRun
    ⟨by decide, by decide⟩ fun step hIn _ => hBelow step hIn

end WxcodeAdm
