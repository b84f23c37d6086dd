import WxcodeAdm.Teams

/-! What a tenant sees of a run.  Its team goes through a run of its own under the policy of roles,
in which nothing of the other tenants occurs; while the tenant is suspended or deleted nobody acts
in it; and whoever is a member was brought in by the members of the time. -/

namespace WxcodeAdm

open Lib

section Runs

variable {cfg : Config} {s s' : Sys} {e : Event} {steps : List (Sys × Event)} {tenantId : Uuid}

theorem Step.seen (hs : s.Sound cfg) (h : Step cfg s e s') (tenantId : Uuid) :
    Seen (e.ctx cfg) e.request s.world s'.world tenantId := by
  cases hOutcome : e.outcome with
  | ok response => exact handle_seen hs.valid (h.committed hOutcome).1 tenantId
  | error error => exact .inl (by rw [h.rolledBack hOutcome])

/-- The acts of a run on the team of one tenant, each with the team that it was made on, and made by
a request of somebody who may make it. -/
def ActsOf (cfg : Config) (tenantId : Uuid) (steps : List (Sys × Event))
    (acts : List (Team Uuid String MemberRole × TeamAct Uuid String MemberRole)) : Prop :=
  Makes (fun p act => act.1 = p.1.world.db.teamOf tenantId ∧
    ∃ performer, Performs (p.2.ctx cfg) p.1.world p.2.request tenantId performer act.2) steps acts

theorem team_run (hReach : Reachable cfg s) (hRun : Run (Step cfg) s steps s') (tenantId : Uuid) :
    ∃ acts, Run (Team.Step .admin) (s.world.db.teamOf tenantId) acts
        (s'.world.db.teamOf tenantId) ∧ ActsOf cfg tenantId steps acts :=
  hRun.simulates (f := fun s => s.world.db.teamOf tenantId)
    (I := Sys.Sound cfg)
    (P := fun p act =>
      ∃ performer, Performs (p.2.ctx cfg) p.1.world p.2.request tenantId performer act)
    (fun hs hStep => hStep.sound hs) (fun hs hStep => hStep.seen hs tenantId) hReach.sound

/-- The team of a tenant goes through a run of its own, and what it is after the run is what the
acts on it have made of it. -/
theorem tenant_isolation (hReach : Reachable cfg s) (hRun : Run (Step cfg) s steps s')
    (tenantId : Uuid) :
    ∃ acts, Run (Team.Step .admin) (s.world.db.teamOf tenantId) acts
        (s'.world.db.teamOf tenantId) ∧
      ActsOf cfg tenantId steps acts ∧
      s'.world.db.teamOf tenantId = (acts.map fun p => p.2).foldl
        (fun t act => t.after .admin act) (s.world.db.teamOf tenantId) := by
  obtain ⟨acts, hActs, hMakes⟩ := team_run hReach hRun tenantId
  exact ⟨acts, hActs, hMakes, Team.after_run hActs⟩

end Runs

/-- Alice makes Bob a viewer. -/
def bobDemoted : Event × Sys :=
  teamSignedIn.2.sample (seconds 20)
    (.changeMemberRole (.signed aliceToken) (some "acme") ⟨2⟩ ⟨⟨.viewer, by decide⟩, none⟩)

def demotion : List (Sys × Event) := [(teamStart, teamSignedIn.1), (teamSignedIn.2, bobDemoted.1)]

theorem demotion_run : Run (Step sampleConfig) teamStart demotion bobDemoted.2 :=
  .cons teamSignedIn_step <| .single (.of_admits (by decide) (by trivial))

theorem tenant_isolation_demotion :
    ∃ acts, Run (Team.Step .admin) (teamStart.world.db.teamOf ⟨5⟩) acts
        (bobDemoted.2.world.db.teamOf ⟨5⟩) ∧
      ActsOf sampleConfig ⟨5⟩ demotion acts ∧
      bobDemoted.2.world.db.teamOf ⟨5⟩ = (acts.map fun p => p.2).foldl
        (fun t act => t.after .admin act) (teamStart.world.db.teamOf ⟨5⟩) :=
  tenant_isolation teamStart_initial.reachable demotion_run ⟨5⟩

/-! ### A closed tenant -/

section Closed

variable {cfg : Config} {s s' : Sys} {steps : List (Sys × Event)} {tenantId : Uuid}

/-- A tenant that is suspended or deleted. -/
def Db.TenantClosed (db : Db) (tenantId : Uuid) : Prop :=
  ∃ t, db.tenant tenantId = some t ∧ (t.isSuspended = true ∨ t.isDeleted = true)

theorem Db.TenantClosed.closed {db : Db} (h : db.TenantClosed tenantId) :
    (db.teamOf tenantId).Closed := by
  obtain ⟨t, ht, hFlags⟩ := h
  obtain ⟨hFounded, hSuspended, hDeleted⟩ := flags_of_tenant ht
  exact ⟨hFounded, hFlags.imp hSuspended.trans hDeleted.trans⟩

/-- In a run through which a tenant is closed, nothing is left to happen in its team but that
invitations from before are taken up, and that the platform bars members or admits them again. -/
theorem closed_tenant_keeps (hReach : Reachable cfg s) (hRun : Run (Step cfg) s steps s')
    (hClosed : ∀ p ∈ steps, p.1.world.db.TenantClosed tenantId) :
    (s.world.db.teamOf tenantId).Keeps (s'.world.db.teamOf tenantId) := by
  obtain ⟨acts, hActs, hMakes⟩ := team_run hReach hRun tenantId
  refine Team.keeps_run hActs fun act hAct => ?_
  obtain ⟨p, hp, hTeam, -⟩ := hMakes.mem hAct
  exact hTeam ▸ (hClosed p hp).closed

end Closed

/-! ### Bob joins a deleted tenant, and is barred -/

def dave : User :=
  { sampleUser with id := ⟨3⟩, email := "dave@example.com", isSuperuser := true }

/-- Alice owns Acme, Bob is no member, and Dave is a super-admin. -/
def closingStart : Sys := sampleStart
  { users := [sampleUser, bob, dave]
    tenants := [acme]
    memberships := [⟨⟨10⟩, ⟨1⟩, ⟨5⟩, .owner, true, false, none, 0⟩] }

theorem closingStart_initial : Initial closingStart := ⟨by decide, rfl, rfl, rfl, rfl, rfl, rfl⟩

def closingSignedIn : Event × Sys :=
  closingStart.sample (seconds 10) (.login "alice@example.com" "pw" none none none)

def bobExpected : Event × Sys :=
  closingSignedIn.2.sample (seconds 20) (.createInvitation (.signed aliceToken) (some "acme")
    ⟨"bob@example.com", ⟨.viewer, by decide⟩, false⟩)

def daveSignedIn : Event × Sys :=
  bobExpected.2.sample (seconds 30) (.adminLogin "dave@example.com" "pw" none)

def daveToken : Payload where
  sub := ⟨3⟩
  aud := some "wxcode-adm-admin"
  iat := 30
  exp := 86430
  jti := ⟨2⟩

def acmeDeleted : Event × Sys :=
  daveSignedIn.2.sample (seconds 40) (.softDeleteTenant (.signed daveToken) ⟨5⟩)

theorem acmeDeleted_reachable : Reachable sampleConfig acmeDeleted.2 :=
  (((closingStart_initial.reachable.step (.of_admits (by decide) (by trivial))).step
    (.of_admits (by decide) (by trivial))).step (.of_admits (by decide) (by trivial))).step
    (.of_admits (by decide) (by trivial))

def bobComes : Event × Sys :=
  acmeDeleted.2.sample (seconds 50) (.login "bob@example.com" "pw" none none none)

def bobJoins : Event × Sys :=
  bobComes.2.sample (seconds 60) (.acceptInvitation
    (.signed { signedInToken with sub := ⟨2⟩, iat := 50, exp := 86450, jti := ⟨4⟩ })
    { payload := some ⟨"bob@example.com", ⟨5⟩⟩, signature := some (invitationSalt, 20) })

def bobBarred : Event × Sys :=
  bobJoins.2.sample (seconds 70) (.blockUser (.signed daveToken) ⟨2⟩ ⟨5⟩)

def closedSteps : List (Sys × Event) :=
  [(acmeDeleted.2, bobComes.1), (bobComes.2, bobJoins.1), (bobJoins.2, bobBarred.1)]

theorem closed_run : Run (Step sampleConfig) acmeDeleted.2 closedSteps bobBarred.2 :=
  .cons (.of_admits (by decide) (by trivial)) <|
    .cons (.of_admits (by decide) fun _ => ⟨"bob@example.com", "Acme", .viewer, .head _⟩) <|
    .single (.of_admits (by decide) (by trivial))

theorem closed_tenant_keeps_bobBarred :
    (acmeDeleted.2.world.db.teamOf ⟨5⟩).seat ⟨2⟩ = none ∧
      (bobBarred.2.world.db.teamOf ⟨5⟩).seat ⟨2⟩ = some ⟨.viewer, false, true⟩ ∧
      (acmeDeleted.2.world.db.teamOf ⟨5⟩).Keeps (bobBarred.2.world.db.teamOf ⟨5⟩) := by
  refine ⟨rfl, rfl, closed_tenant_keeps acmeDeleted_reachable closed_run fun p hp => ?_⟩
  refine ⟨{ acme with isDeleted := true }, ?_, .inr rfl⟩
  simp only [closedSteps, List.mem_cons, List.not_mem_nil, or_false] at hp
  rcases hp with rfl | rfl | rfl <;> rfl

section Deleted

variable {cfg : Config} {s s' : Sys} {steps : List (Sys × Event)} {tenantId : Uuid}

/-- A tenant that has been deleted is deleted in every state from then on, and so kept. -/
theorem deleted_tenant_keeps (hReach : Reachable cfg s) (hRun : Run (Step cfg) s steps s')
    {t : Tenant} (ht : s.world.db.tenant tenantId = some t) (hDeleted : t.isDeleted = true) :
    (s.world.db.teamOf tenantId).Keeps (s'.world.db.teamOf tenantId) ∧
      ∃ t', s'.world.db.tenant tenantId = some t' ∧ t'.isDeleted = true := by
  obtain ⟨acts, hActs, -⟩ := team_run hReach hRun tenantId
  obtain ⟨hFounded, -, hFlag⟩ := flags_of_tenant ht
  obtain ⟨hKeeps, hGone⟩ := Team.deleted_run hActs hFounded (hFlag.trans hDeleted)
  exact ⟨hKeeps, (Option.any_eq_true _ _).mp hGone⟩

end Deleted

theorem deleted_tenant_keeps_bobBarred :
    (acmeDeleted.2.world.db.teamOf ⟨5⟩).Keeps (bobBarred.2.world.db.teamOf ⟨5⟩) ∧
      ∃ t', bobBarred.2.world.db.tenant ⟨5⟩ = some t' ∧ t'.isDeleted = true :=
  deleted_tenant_keeps (t := { acme with isDeleted := true }) acmeDeleted_reachable closed_run rfl rfl

/-! ### Who brought whom in -/

/-- Whoever is a member of a tenant was one at the start, has founded it, or was invited by a
manager of the time who had come to it before. -/
theorem members_brought_in {cfg : Config} {s₀ s : Sys} {steps : List (Sys × Event)}
    (hInit : Initial s₀) (hRun : Run (Step cfg) s₀ steps s) (tenantId : Uuid) :
    ∃ acts, Run (Team.Step .admin) (s₀.world.db.teamOf tenantId) acts
        (s.world.db.teamOf tenantId) ∧
      ActsOf cfg tenantId steps acts ∧
      ∀ m ∈ s.world.db.memberships, m.tenantId = tenantId →
        Team.Brought .admin (fun u => (s₀.world.db.membership u tenantId).isSome = true) acts
          m.userId := by
  obtain ⟨acts, hActs, hMakes⟩ := team_run hInit.reachable hRun tenantId
  have hStart (email : String) : (s₀.world.db.teamOf tenantId).invite email = none := by
    simp [Db.teamOf, hInit.invitations, lookup]
  refine ⟨acts, hActs, hMakes, fun m hm hIn => ?_⟩
  subst hIn
  have hValid := (hInit.reachable.run hRun).sound.valid
  have hBrought := (Team.brought_run hActs hStart).1 m.userId (by
    rw [Db.seat_of_mem hValid.membershipUserTenant hm]
    rfl)
  simpa only [Db.teamOf_seat, Option.isSome_map] using hBrought

theorem members_brought_in_demotion :
    ∃ acts, Run (Team.Step .admin) (teamStart.world.db.teamOf ⟨5⟩) acts
        (bobDemoted.2.world.db.teamOf ⟨5⟩) ∧
      ActsOf sampleConfig ⟨5⟩ demotion acts ∧
      ∀ m ∈ bobDemoted.2.world.db.memberships, m.tenantId = ⟨5⟩ →
        Team.Brought .admin (fun u => (teamStart.world.db.membership u ⟨5⟩).isSome = true) acts
          m.userId :=
  members_brought_in teamStart_initial demotion_run ⟨5⟩

end WxcodeAdm
